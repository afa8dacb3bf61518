import GameServer.GuanDan.Shapes
/-!
# Guandan — what wild cards become

Where `MagicCardData` fills a line it keeps the other cards, and each wild
card becomes a card of the first one's colour (`filled_perm`). Whether it
does, and the values it makes, are told by the values of the other cards
(`fillLine_congr`). On a play of the decks it does one of five things
(`Resolved`).
-/

namespace GameServer.GuanDan

variable {mainValue : ℕ} {cards order normal normal' : List UInt8} {maxSame magicCount : ℕ}
  {f f' : Filling} {idxs : List ℕ}
variable {i : ℕ} {c : UInt8}

/-! ## The line -/

/-- The cards at an index that are put into a line. -/
def placed (normal : List UInt8) (index : ℕ) : List UInt8 :=
  (List.range 4).flatMap fun j =>
    List.replicate (distributing normal index j) (makeCardData (index + 1) (UInt8.ofNat j))

/-- The wild cards at an index. -/
def filled (normal : List UInt8) (maxSame index : ℕ) : List UInt8 :=
  List.replicate (maxSame - (placed normal index).length)
    (makeCardData (index + 1) (getCardColor (normal.headD 0) >>> 4))

def fillStep (normal : List UInt8) (maxSame index : ℕ) (f : Filling) : Filling :=
  { result := f.result ++ placed normal index ++ filled normal maxSame index
    leave := (f.leave + 256 - (placed normal index).length % 256) % 256
    useable := (f.useable + 256 - (filled normal maxSame index).length % 256) % 256 }

theorem fillLine_cons (normal : List UInt8) (maxSame index : ℕ) (rest : List ℕ) (f : Filling) :
    fillLine normal maxSame (index :: rest) f =
      if f.leave ≠ normal.length ∨ distributing normal index 5 ≠ 0 then
        if distributing normal index 5 + f.useable < maxSame then f
        else fillLine normal maxSame rest (fillStep normal maxSame index f)
      else fillLine normal maxSame rest f := rfl

@[simp] theorem length_placed_eq (normal : List UInt8) (index : ℕ) :
    (placed normal index).length = placedCount normal index := length_placed normal index

@[simp] theorem length_filled (normal : List UInt8) (maxSame index : ℕ) :
    (filled normal maxSame index).length = maxSame - placedCount normal index := by
  rw [filled, List.length_replicate, length_placed_eq]

theorem leave_fillStep (normal : List UInt8) (maxSame index : ℕ) (f : Filling) :
    (fillStep normal maxSame index f).leave =
      (f.leave + 256 - placedCount normal index % 256) % 256 := by
  rw [fillStep, length_placed_eq]

theorem useable_fillStep (normal : List UInt8) (maxSame index : ℕ) (f : Filling) :
    (fillStep normal maxSame index f).useable =
      (f.useable + 256 - (maxSame - placedCount normal index) % 256) % 256 := by
  rw [fillStep, length_filled]

/-- The line over the indices `V`, from a state that has `count` cards
placed. -/
structure FilledOver (normal : List UInt8) (maxSame count : ℕ) (V : List ℕ) (f f' : Filling) :
    Prop where
  result : f'.result = f.result ++ V.flatMap fun i => placed normal i ++ filled normal maxSame i
  leave : (f'.leave + (count + (V.map (placedCount normal)).sum)) % 256 = normal.length
  leave_lt : f'.leave < 256
  useable : f'.useable + (V.map fun i => maxSame - placedCount normal i).sum = f.useable

theorem FilledOver.refl {count : ℕ} (hleave : (f.leave + count) % 256 = normal.length)
    (hlt : f.leave < 256) : FilledOver normal maxSame count [] f f :=
  ⟨by simp, by simpa using hleave, hlt, by simp⟩

theorem FilledOver.cons {count : ℕ} {V : List ℕ}
    (huse : f.useable < 256) (hroom : maxSame - placedCount normal i ≤ f.useable)
    (h : FilledOver normal maxSame (count + placedCount normal i) V (fillStep normal maxSame i f) f') :
    FilledOver normal maxSame count (i :: V) f f' := by
  have huse' : (fillStep normal maxSame i f).useable =
      f.useable - (maxSame - placedCount normal i) := by
    rw [useable_fillStep]
    omega
  refine ⟨?_, ?_, h.leave_lt, ?_⟩
  · rw [h.result, fillStep, List.flatMap_cons, List.append_assoc, List.append_assoc,
      List.append_assoc]
  · rw [List.map_cons, List.sum_cons, ← Nat.add_assoc count]
    exact h.leave
  · have := h.useable
    rw [List.map_cons, List.sum_cons]
    omega

/-- **Once begun, the line goes on** index by index until it stops. -/
theorem fillLine_begun (hlen : normal.length < 256) : ∀ (idxs : List ℕ) (f : Filling) (count : ℕ),
    (∀ i ∈ idxs, distributing normal i 5 = placedCount normal i) → 0 < count →
      count + (idxs.map (placedCount normal)).sum < 256 →
      (f.leave + count) % 256 = normal.length → f.leave < 256 → f.useable < 256 →
        ∃ V, V <+: idxs ∧ FilledOver normal maxSame count V f (fillLine normal maxSame idxs f)
  | [], f, count, _, _, _, hleave, hlt, _ => ⟨[], List.nil_prefix, .refl hleave hlt⟩
  | i :: idxs, f, count, hplaced, hpos, hsum, hleave, hlt, huse => by
    obtain ⟨hi, hrest⟩ := List.forall_mem_cons.1 hplaced
    rw [List.map_cons, List.sum_cons] at hsum
    rw [fillLine_cons, if_pos (.inl (by omega)), hi]
    split_ifs with hshort
    · exact ⟨[], List.nil_prefix, .refl hleave hlt⟩
    · obtain ⟨V, hV, hover⟩ := fillLine_begun hlen idxs (fillStep normal maxSame i f)
        (count + placedCount normal i) hrest (by omega) (by omega)
        (by rw [leave_fillStep]; omega) (Nat.mod_lt _ (by omega)) (Nat.mod_lt _ (by omega))
      exact ⟨i :: V, List.cons_prefix_cons.2 ⟨rfl, hV⟩, .cons huse (by omega) hover⟩

/-- **The indices a line goes over** follow one another. -/
theorem fillLine_spec (hlen : normal.length < 256) : ∀ (idxs : List ℕ) (f : Filling),
    (∀ i ∈ idxs, distributing normal i 5 = placedCount normal i) →
      (idxs.map (placedCount normal)).sum < 256 → f.leave = normal.length → f.useable < 256 →
        ∃ V, V <:+: idxs ∧ FilledOver normal maxSame 0 V f (fillLine normal maxSame idxs f)
  | [], f, _, _, hleave, _ => ⟨[], List.nil_infix, .refl (by omega) (by omega)⟩
  | i :: idxs, f, hplaced, hsum, hleave, huse => by
    obtain ⟨hi, hrest⟩ := List.forall_mem_cons.1 hplaced
    rw [List.map_cons, List.sum_cons] at hsum
    rw [fillLine_cons, hi]
    split_ifs with hbegin hshort
    · exact ⟨[], List.nil_infix, .refl (by omega) (by omega)⟩
    · have hpos : 0 < placedCount normal i := by omega
      obtain ⟨V, hV, hover⟩ := fillLine_begun hlen idxs (fillStep normal maxSame i f)
        (placedCount normal i) hrest hpos (by omega)
        (by rw [leave_fillStep]; omega) (Nat.mod_lt _ (by omega)) (Nat.mod_lt _ (by omega))
      refine ⟨i :: V, (List.cons_prefix_cons.2 ⟨rfl, hV⟩).isInfix, .cons huse (by omega) ?_⟩
      rwa [Nat.zero_add]
    · obtain ⟨V, hV, hover⟩ := fillLine_spec hlen idxs f hrest (by omega) hleave huse
      exact ⟨V, hV.trans (List.suffix_cons _ _).isInfix, hover⟩

/-! ## Lines of the decks -/

/-- The indices from the ace up. -/
def upward : List ℕ := (List.range 14).map (· % 13)

def downward : List ℕ := (List.range 14).map fun i => (13 - i) % 13

/-- Before a line is filled. -/
def startLine (normal : List UInt8) (magicCount : ℕ) : Filling :=
  { result := [], leave := normal.length, useable := magicCount }

/-- A line that used all cards. -/
def Filling.Done (f : Filling) : Prop := f.useable = 0 ∧ f.leave = 0

instance (f : Filling) : Decidable f.Done := inferInstanceAs (Decidable (_ ∧ _))

/-- Bytes with a value and, but for the jokers, one of the four colours. -/
def Colored (normal : List UInt8) : Prop :=
  ∀ c ∈ normal, 1 ≤ getCardValue c ∧ (getCardValue c ≤ 13 → getCardColor c < 0x40)

theorem Colored.ne_zero (h : Colored normal) (hc : c ∈ normal) : c ≠ 0 := by
  rintro rfl
  exact absurd (h 0 hc).1 (by decide)

theorem Colored.distributing_eq (h : Colored normal) (hi : i < 13) :
    distributing normal i 5 = placedCount normal i :=
  GuanDan.distributing_eq hi fun c hc _ => (h c hc).2

theorem column_lt (hcolor : getCardColor c < 0x40) : (getCardColor c >>> 4).toNat < 4 := by
  have hlt := UInt8.lt_iff_toNat_lt.1 hcolor
  rw [UInt8.toNat_shiftRight, Nat.shiftRight_eq_div_pow]
  exact Nat.div_lt_of_lt_mul hlt

/-- Cards of the decks are put into the line as they are. -/
theorem Colored.placed_perm (h : Colored normal) (hi : i < 13) :
    (placed normal i).Perm (normal.filter fun c => getCardValue c = i + 1) := by
  have hbyte : ∀ n < 256, makeCardData (getCardValue (UInt8.ofNat n))
      (UInt8.ofNat (getCardColor (UInt8.ofNat n) >>> 4).toNat) = UInt8.ofNat n := by decide +kernel
  have hcolumn : ∀ j ∈ List.range 4, List.replicate (distributing normal i j)
      (makeCardData (i + 1) (UInt8.ofNat j)) =
        (normal.filter fun c => getCardValue c = i + 1).filter
          fun c => (getCardColor c >>> 4).toNat = j := by
    intro j hj
    have hlt := List.mem_range.1 hj
    symm
    refine List.eq_replicate_iff.2 ⟨?_, fun c hc => ?_⟩
    · rw [List.filter_filter, ← List.countP_eq_length_filter, distributing, if_neg (by omega)]
      refine List.countP_congr fun c hc => ?_
      have hne := h.ne_zero hc
      rw [Bool.and_eq_true, decide_eq_true_eq, decide_eq_true_eq, decide_eq_true_eq]
      exact ⟨fun hc => ⟨hne, hc.2, hc.1⟩, fun hc => ⟨hc.2.2, hc.2.1⟩⟩
    · simp only [List.mem_filter, decide_eq_true_eq] at hc
      obtain ⟨⟨-, hvalue⟩, hcolor⟩ := hc
      have := hbyte c.toNat c.toNat_lt
      rw [UInt8.ofNat_toNat, hvalue, hcolor] at this
      exact this.symm
  have hall : (normal.filter fun c => getCardValue c = i + 1).filter
      (fun c => (getCardColor c >>> 4).toNat ∈ List.range 4) =
        normal.filter fun c => getCardValue c = i + 1 := by
    refine List.filter_eq_self.2 fun c hc => ?_
    rw [List.mem_filter, decide_eq_true_eq] at hc
    exact decide_eq_true (List.mem_range.2 (column_lt ((h c hc.1).2 (by omega))))
  rw [placed, List.flatMap_congr hcolumn]
  exact (perm_flatMap_filter _ _ List.nodup_range).trans (.of_eq hall)

theorem Colored.placedCount_eq (h : Colored normal) (hi : i < 13) :
    placedCount normal i = normal.countP fun c => getCardValue c = i + 1 := by
  rw [← length_placed_eq, (h.placed_perm hi).length_eq, List.countP_eq_length_filter]

/-- A stretch of the indices that is not all of them has none twice. -/
theorem nodup_of_infix {V : List ℕ} (hidxs : idxs = upward ∨ idxs = downward) (hV : V <:+: idxs)
    (hlen : V.length ≤ 13) : V.Nodup := by
  have hfront : (idxs.take 13).Nodup := by rcases hidxs with rfl | rfl <;> decide
  have hback : idxs.tail.Nodup := by rcases hidxs with rfl | rfl <;> decide
  obtain ⟨front, back, hsplit⟩ := hV
  cases front with
  | nil =>
    refine hfront.sublist ?_
    rw [← hsplit, List.nil_append, List.take_append, List.take_of_length_le hlen]
    exact List.sublist_append_left _ _
  | cons i front =>
    refine hback.sublist ?_
    rw [← hsplit, List.append_assoc, List.cons_append, List.tail_cons]
    exact (List.sublist_append_left _ _).trans (List.sublist_append_right _ _)

theorem mem_line_lt (hidxs : idxs = upward ∨ idxs = downward) (hi : i ∈ idxs) : i < 13 := by
  have hlt : ∀ i ∈ upward ++ downward, i < 13 := by decide
  rcases hidxs with rfl | rfl
  · exact hlt i (List.mem_append_left _ hi)
  · exact hlt i (List.mem_append_right _ hi)

/-- What a wild card becomes: a card of the colour of the first one. -/
theorem filled_spec (hi : i < 13) (hc : c ∈ filled normal maxSame i) :
    getCardValue c = i + 1 ∧ getCardColor c = getCardColor (normal.headD 0) := by
  have hbyte : ∀ i < 13, ∀ n < 256,
      getCardValue (makeCardData (i + 1) (getCardColor (UInt8.ofNat n) >>> 4)) = i + 1 ∧
        getCardColor (makeCardData (i + 1) (getCardColor (UInt8.ofNat n) >>> 4)) =
          getCardColor (UInt8.ofNat n) := by decide +kernel
  rw [List.eq_of_mem_replicate hc]
  have := hbyte i hi (normal.headD 0).toNat (normal.headD 0).toNat_lt
  rwa [UInt8.ofNat_toNat] at this

theorem values_filled (hi : i < 13) (normal : List UInt8) (maxSame : ℕ) :
    (filled normal maxSame i).map getCardValue =
      List.replicate (maxSame - placedCount normal i) (i + 1) := by
  refine List.eq_replicate_iff.2 ⟨by rw [List.length_map, length_filled], fun v hv => ?_⟩
  obtain ⟨c, hc, rfl⟩ := List.mem_map.1 hv
  exact (filled_spec hi hc).1

/-- **A line that is done has the other cards, and a card for each wild
one**, which comes only where there are too few. -/
theorem Colored.filled_perm (h : Colored normal) (hidxs : idxs = upward ∨ idxs = downward)
    (hcount : normal.length + magicCount ≤ 6) (hsame : 1 ≤ maxSame)
    (hdone : (fillLine normal maxSame idxs (startLine normal magicCount)).Done) :
    ∃ extra, (fillLine normal maxSame idxs (startLine normal magicCount)).result.Perm
      (normal ++ extra) ∧ extra.length = magicCount ∧ (∀ c ∈ extra, 1 ≤ getCardValue c ∧
        getCardValue c ≤ 13 ∧ getCardColor c = getCardColor (normal.headD 0)) ∧
          (∀ c ∈ normal, getCardValue c ≤ 13) ∧ ∀ v, ((normal ++ extra).map getCardValue).count v ≤
            max ((normal.map getCardValue).count v) maxSame := by
  have htwo : ∀ v ≤ 15, idxs.countP (fun i => v = i + 1) ≤ 2 := by
    rcases hidxs with rfl | rfl <;> decide
  have hsum := sum_placedCount_le idxs htwo normal
  obtain ⟨V, hV, hover⟩ := @fillLine_spec normal maxSame (by omega) idxs (startLine normal magicCount)
    (fun i hi => h.distributing_eq (mem_line_lt hidxs hi)) (by omega) rfl
    (show magicCount < 256 by omega)
  have hlt : ∀ i ∈ V, i < 13 := fun i hi => mem_line_lt hidxs (hV.sublist.subset hi)
  have hVsum : (V.map (placedCount normal)).sum ≤ (idxs.map (placedCount normal)).sum :=
    (hV.sublist.map _).sum_le_sum (by simp)
  obtain ⟨huse, hleave⟩ := hdone
  have hcards : (V.map (placedCount normal)).sum = normal.length := by
    have := hover.leave
    omega
  have hwild : (V.map fun i => maxSame - placedCount normal i).sum = magicCount := by
    have := hover.useable
    rwa [huse, Nat.zero_add] at this
  -- every index takes a card at least
  have hlong : V.length ≤ (V.map (placedCount normal)).sum +
      (V.map fun i => maxSame - placedCount normal i).sum := by
    clear hcards hwild hVsum hlt hover hV
    induction V with
    | nil => exact Nat.zero_le _
    | cons i V ih =>
      simp only [List.map_cons, List.sum_cons, List.length_cons]
      omega
  have hnodup := nodup_of_infix hidxs hV (by omega)
  obtain ⟨hcover, hlow⟩ : (V.flatMap (placed normal)).Perm normal ∧
      ∀ c ∈ normal, getCardValue c ≤ 13 := by
    have hperm : (V.flatMap (placed normal)).Perm (normal.filter fun c => getCardValue c - 1 ∈ V) := by
      refine (List.Perm.flatMap_left V fun i hi => h.placed_perm (hlt i hi)).trans ?_
      have hkey : ∀ i ∈ V, (normal.filter fun c => getCardValue c = i + 1) =
          normal.filter fun c => getCardValue c - 1 = i := by
        intro i _
        refine List.filter_congr fun c hc => ?_
        have := (h c hc).1
        simp only [decide_eq_decide]
        omega
      rw [List.flatMap_congr hkey]
      exact perm_flatMap_filter _ _ hnodup
    have hlen := hperm.length_eq
    rw [List.length_flatMap, List.map_congr_left fun i _ => length_placed_eq normal i, hcards] at hlen
    have hall := List.length_filter_eq_length_iff.1 hlen.symm
    rw [List.filter_eq_self.2 fun c hc => hall c hc] at hperm
    refine ⟨hperm, fun c hc => ?_⟩
    have := hlt _ (of_decide_eq_true (hall c hc))
    omega
  have hextra : ∀ v, ((V.flatMap (filled normal maxSame)).map getCardValue).count v ≤
      maxSame - (normal.map getCardValue).count v := by
    intro v
    clear hlong hcover hcards hwild hVsum hover hV hlow
    induction V with
    | nil => exact Nat.zero_le _
    | cons i V ih =>
      obtain ⟨hi, hnodup⟩ := List.nodup_cons.1 hnodup
      have hlt' : ∀ j ∈ V, j < 13 := fun j hj => hlt j (List.mem_cons_of_mem _ hj)
      have hi13 := hlt i List.mem_cons_self
      rw [List.flatMap_cons, List.map_append, List.count_append, values_filled hi13, List.count_replicate]
      split_ifs with hv
      · -- no later index has this value
        have hnone : ((V.flatMap (filled normal maxSame)).map getCardValue).count v = 0 := by
          refine List.count_eq_zero.2 fun hmem => ?_
          obtain ⟨c, hc, hvalue⟩ := List.mem_map.1 hmem
          obtain ⟨j, hj, hcj⟩ := List.mem_flatMap.1 hc
          have := (filled_spec (hlt' j hj) hcj).1
          have hij : i = j := by
            have := of_decide_eq_true hv
            omega
          exact hi (hij ▸ hj)
        rw [hnone, h.placedCount_eq hi13, ← (of_decide_eq_true hv : i + 1 = v), List.count_eq_countP,
          List.countP_map, Nat.add_zero]
        exact le_rfl
      · rw [Nat.zero_add]
        exact ih hlt' hnodup
  refine ⟨V.flatMap (filled normal maxSame), ?_, ?_, ?_, hlow, fun v => ?_⟩
  · rw [hover.result]
    exact (List.flatMap_append_perm V _ _).symm.trans (hcover.append_right _)
  · rw [List.length_flatMap, List.map_congr_left fun i _ => length_filled normal maxSame i, hwild]
  · intro c hc
    obtain ⟨i, hi, hmem⟩ := List.mem_flatMap.1 hc
    obtain ⟨hvalue, hcolor⟩ := filled_spec (hlt i hi) hmem
    have := hlt i hi
    exact ⟨by omega, by omega, hcolor⟩
  · have := hextra v
    rw [List.map_append, List.count_append]
    omega

structure SameLine (f f' : Filling) : Prop where
  values : f.result.map getCardValue = f'.result.map getCardValue
  leave : f.leave = f'.leave
  useable : f.useable = f'.useable

theorem SameLine.done (h : SameLine f f') : f.Done ↔ f'.Done := by
  rw [Filling.Done, Filling.Done, h.leave, h.useable]

theorem Colored.placedCount_congr (h : Colored normal) (h' : Colored normal')
    (hvalues : (normal.map getCardValue).Perm (normal'.map getCardValue)) (hi : i < 13) :
    placedCount normal i = placedCount normal' i := by
  have := hvalues.count_eq (i + 1)
  rw [List.count_eq_countP, List.count_eq_countP, List.countP_map, List.countP_map] at this
  rw [h.placedCount_eq hi, h'.placedCount_eq hi]
  exact this

theorem values_placed (hi : i < 13) (normal : List UInt8) :
    (placed normal i).map getCardValue = List.replicate (placedCount normal i) (i + 1) := by
  have hvalue : ∀ i < 13, ∀ j < 4, getCardValue (makeCardData (i + 1) (UInt8.ofNat j)) = i + 1 := by
    decide +kernel
  refine List.eq_replicate_iff.2 ⟨by rw [List.length_map, length_placed_eq], fun v hv => ?_⟩
  obtain ⟨c, hc, rfl⟩ := List.mem_map.1 hv
  obtain ⟨j, hj, hmem⟩ := List.mem_flatMap.1 hc
  rw [List.eq_of_mem_replicate hmem]
  exact hvalue i hi j (List.mem_range.1 hj)

/-- **A line goes by the values of the cards.** -/
theorem Colored.fillLine_congr (h : Colored normal) (h' : Colored normal')
    (hvalues : (normal.map getCardValue).Perm (normal'.map getCardValue)) :
    ∀ (idxs : List ℕ) (f f' : Filling), (∀ i ∈ idxs, i < 13) → SameLine f f' →
      SameLine (fillLine normal maxSame idxs f) (fillLine normal' maxSame idxs f')
  | [], _, _, _, hsame => hsame
  | i :: idxs, f, f', hidxs, hsame => by
    obtain ⟨hi, hrest⟩ := List.forall_mem_cons.1 hidxs
    have hlen : normal.length = normal'.length := by simpa using hvalues.length_eq
    have hcount := h.placedCount_congr h' hvalues hi
    have hrec := Colored.fillLine_congr h h' hvalues idxs
    rw [fillLine_cons, fillLine_cons, h.distributing_eq hi, h'.distributing_eq hi, hcount,
      hsame.leave, hsame.useable, hlen]
    split_ifs
    · exact hsame
    · refine hrec _ _ hrest ⟨?_, ?_, ?_⟩
      · simp only [fillStep, List.map_append, values_placed hi, values_filled hi, hcount, hsame.values]
      · rw [leave_fillStep, leave_fillStep, hcount, hsame.leave]
      · rw [useable_fillStep, useable_fillStep, hcount, hsame.useable]
    · exact hrec _ _ hrest hsame

/-- The line that `MagicCardData` fills at given indices. -/
def line (normal : List UInt8) (magicCount maxSame : ℕ) (idxs : List ℕ) : Filling :=
  fillLine normal maxSame idxs (startLine normal magicCount)

theorem Colored.line_congr (h : Colored normal) (h' : Colored normal')
    (hvalues : (normal.map getCardValue).Perm (normal'.map getCardValue))
    (hidxs : idxs = upward ∨ idxs = downward) :
    SameLine (line normal magicCount maxSame idxs) (line normal' magicCount maxSame idxs) :=
  h.fillLine_congr h' hvalues idxs _ _ (fun _ hi => mem_line_lt hidxs hi)
    ⟨rfl, by simpa [startLine] using hvalues.length_eq, rfl⟩

theorem colored_plainCards {vs : List ℕ} (h : ∀ v ∈ vs, 1 ≤ v ∧ v ≤ 13) : Colored (plainCards vs) := by
  have hplain : ∀ v < 14, 1 ≤ v → 1 ≤ getCardValue (UInt8.ofNat v) ∧ getCardColor (UInt8.ofNat v) < 0x40 := by
    decide
  intro c hc
  obtain ⟨v, hv, rfl⟩ := List.mem_map.1 hc
  obtain ⟨hlow, hhigh⟩ := h v hv
  obtain ⟨hvalue, hcolor⟩ := hplain v (by omega) hlow
  exact ⟨hvalue, fun _ => hcolor⟩

theorem Colored.line_plainCards (h : Colored normal) {vs : List ℕ}
    (hvalues : (normal.map getCardValue).Perm vs) (hvs : ∀ v ∈ vs, 1 ≤ v ∧ v ≤ 13)
    (hidxs : idxs = upward ∨ idxs = downward) :
    SameLine (line normal magicCount maxSame idxs) (line (plainCards vs) magicCount maxSame idxs) := by
  refine h.line_congr (colored_plainCards hvs) (hvalues.trans (.of_eq (map_plainCards fun v hv => ?_).symm)) hidxs
  have := hvs v hv
  omega

theorem Colored.length_line (h : Colored normal) (hidxs : idxs = upward ∨ idxs = downward)
    (hcount : normal.length + magicCount ≤ 6) (hsame : 1 ≤ maxSame)
    (hdone : (line normal magicCount maxSame idxs).Done) :
    (line normal magicCount maxSame idxs).result.length = normal.length + magicCount := by
  obtain ⟨extra, hperm, hlen, -⟩ := h.filled_perm hidxs hcount hsame hdone
  rw [show (line normal magicCount maxSame idxs).result.length = _ from hperm.length_eq,
    List.length_append, hlen]

/-- The lines of `MagicCardData` on cards of the decks: upwards, and else
downwards. -/
theorem Colored.fillLines_eq (h : Colored normal) (hcount : normal.length + magicCount ≤ 6)
    (hsame : 1 ≤ maxSame) : fillLines mainValue normal magicCount maxSame = some
      (if (line normal magicCount maxSame upward).Done then
        some (sortCardList mainValue (line normal magicCount maxSame upward).result)
      else if (line normal magicCount maxSame downward).Done then
        some (sortCardList mainValue (line normal magicCount maxSame downward).result)
      else none) := by
  have hmax : maxCount = 28 := rfl
  obtain ⟨result, hresult, -⟩ := @fillLines_spec mainValue normal magicCount maxSame hcount
    (.inr fun c hc _ => (h c hc).2)
  have hdef : fillLines mainValue normal magicCount maxSame =
      if maxCount < (line normal magicCount maxSame upward).result.length then none
      else if (line normal magicCount maxSame upward).Done then
        some (some (sortCardList mainValue (((line normal magicCount maxSame upward).result ++
          List.replicate (maxCount - (line normal magicCount maxSame upward).result.length) 0).take
            (normal.length + magicCount))))
      else if maxCount < (line normal magicCount maxSame downward).result.length then none
      else if (line normal magicCount maxSame downward).Done then
        some (some (sortCardList mainValue (((line normal magicCount maxSame downward).result ++
          ((line normal magicCount maxSame upward).result ++
            List.replicate (maxCount - (line normal magicCount maxSame upward).result.length) 0).drop
              (line normal magicCount maxSame downward).result.length).take
                (normal.length + magicCount))))
      else some none := rfl
  rw [hdef] at hresult ⊢
  split_ifs at hresult ⊢ with hlong hup hlong' hdown
  · rw [← h.length_line (.inl rfl) hcount hsame hup, List.take_left]
  · rw [← h.length_line (.inr rfl) hcount hsame hdown, List.take_left]
  · rfl

/-! ## Plays of the decks -/

def wildCount (mainValue : ℕ) (cards : List UInt8) : ℕ := cards.countP fun c => IsMagic mainValue c

theorem length_others_add (mainValue : ℕ) (cards : List UInt8) :
    (others mainValue cards).length + wildCount mainValue cards = cards.length :=
  length_others mainValue cards

theorem FromDecks.colored (h : FromDecks cards) : Colored (others mainValue cards) := by
  have hdeck : ∀ c ∈ cardData, 1 ≤ getCardValue c ∧ (getCardValue c ≤ 13 → getCardColor c < 0x40) := by
    decide +kernel
  exact fun c hc => hdeck c (h.subset (List.mem_of_mem_filter hc))

/-- The decks have two wild cards, with a value up to the king. -/
theorem FromDecks.wildCount_le (h : FromDecks cards) : wildCount mainValue cards ≤ 2 ∧
    (0 < wildCount mainValue cards → 1 ≤ mainValue ∧ mainValue ≤ 13) := by
  have hcount : ∀ m < 16, (cardData.countP fun c => IsMagic m c) ≤ 2 := by decide +kernel
  have hvalue : ∀ c ∈ cardData, getCardColor c = 0x20 → 1 ≤ getCardValue c ∧ getCardValue c ≤ 13 := by
    decide +kernel
  have hmain : 0 < wildCount mainValue cards → 1 ≤ mainValue ∧ mainValue ≤ 13 := by
    intro hpos
    obtain ⟨c, hc, hmagic⟩ := List.countP_pos_iff.1 hpos
    obtain ⟨rfl, hcolor⟩ := of_decide_eq_true hmagic
    exact hvalue c (h.subset hc) hcolor
  refine ⟨?_, hmain⟩
  rcases Nat.eq_zero_or_pos (wildCount mainValue cards) with hzero | hpos
  · omega
  · exact (h.countP_le _).trans (hcount mainValue (by have := hmain hpos; omega))

/-- The decks have eight cards of a value, and two jokers of each. -/
theorem FromDecks.countP_value_le (h : FromDecks cards) (v : ℕ) :
    (cards.countP fun c => getCardValue c = v) ≤ if 14 ≤ v then 2 else 8 := by
  by_cases hv : v < 16
  · have hcount : ∀ v < 16, (cardData.countP fun c => getCardValue c = v) ≤ if 14 ≤ v then 2 else 8 := by
      decide +kernel
    exact (h.countP_le _).trans (hcount v hv)
  · rw [List.countP_eq_zero.2]
    · exact Nat.zero_le _
    · intro c _ hc
      have := getCardValue_le c
      have := of_decide_eq_true hc
      omega

/-- Other cards of one rank are no more than the cards of its value. -/
theorem length_others_le (hone : OneRank (others mainValue cards))
    (hmem : c ∈ others mainValue cards) :
    (others mainValue cards).length ≤ cards.countP fun x => getCardValue x = getCardValue c := by
  rw [List.countP_eq_length_filter]
  refine List.Sublist.length_le ?_
  have hself : (others mainValue cards).filter (fun x => getCardValue x = getCardValue c) =
      others mainValue cards := List.filter_eq_self.2 fun x hx => decide_eq_true (hone x hx c hmem)
  rw [← hself]
  exact List.filter_sublist.filter _

/-- Of three cards and more that wild cards do not make one rank, two are of
different ranks. -/
theorem FromDecks.not_oneRank (h : FromDecks cards) (hwild : 0 < wildCount mainValue cards)
    (hnot : ¬ Uniform mainValue cards) (hlen : 3 ≤ (others mainValue cards).length) :
    ¬ OneRank (others mainValue cards) := by
  intro hone
  obtain ⟨c, rest, hothers⟩ := List.exists_cons_of_length_pos (by omega : 0 < (others mainValue cards).length)
  have hhead : (others mainValue cards).headD 0 = c := by rw [hothers]; rfl
  have hmem : c ∈ others mainValue cards := hothers ▸ List.mem_cons_self
  obtain ⟨w, hw, hmagic⟩ := List.countP_pos_iff.1 hwild
  refine hnot ⟨⟨w, hw, of_decide_eq_true hmagic⟩, by rw [hothers]; exact List.cons_ne_nil _ _, ?_, ?_⟩
  · rw [hhead]
    by_contra hhigh
    have hjoker : 14 ≤ getCardValue c := by
      rw [getCardLogicValue_eq] at hhigh
      split_ifs at hhigh <;> omega
    have hcount := h.countP_value_le (getCardValue c)
    have hall := length_others_le hone hmem
    rw [if_pos hjoker] at hcount
    omega
  · intro x hx
    rw [hhead, logicValue_inj]
    exact hone x hx c hmem

/-! ## What `MagicCardData` does -/

/-- `cbMaxSameCount` of a play. -/
def sameCount (mainValue : ℕ) (normal : List UInt8) : ℕ :=
  maxSameCount mainValue 1 (getCardLogicValue mainValue (normal.headD 0)) (normal.drop 1)

theorem maxSameCount_le (mainValue : ℕ) : ∀ (l : List UInt8) (same logic : ℕ), 1 ≤ same →
    1 ≤ maxSameCount mainValue same logic l ∧ maxSameCount mainValue same logic l ≤ same + l.length ∧
      ((∃ c ∈ l, getCardLogicValue mainValue c ≠ logic) →
        maxSameCount mainValue same logic l < same + l.length)
  | [], same, logic, hsame => by
    rw [maxSameCount]
    exact ⟨le_rfl, by omega, fun ⟨_, hc, _⟩ => absurd hc List.not_mem_nil⟩
  | [c], same, logic, hsame => by
    rw [maxSameCount, List.length_singleton]
    split_ifs with hc
    · refine ⟨by omega, by omega, ?_⟩
      rintro ⟨d, hd, hne⟩
      rw [List.mem_singleton.1 hd] at hne
      exact absurd hc hne
    · exact ⟨by omega, by omega, fun _ => by omega⟩
  | c :: d :: l, same, logic, hsame => by
    rw [maxSameCount, List.length_cons]
    · split_ifs with hc
      · obtain ⟨hone, hle, hlt⟩ := maxSameCount_le mainValue (d :: l) (same + 1) logic (by omega)
        refine ⟨hone, by omega, ?_⟩
        rintro ⟨x, hx, hne⟩
        rcases List.mem_cons.1 hx with rfl | hx
        · exact absurd hc hne
        · have := hlt ⟨x, hx, hne⟩
          omega
      · obtain ⟨hone, hle, -⟩ := maxSameCount_le mainValue (d :: l) 1 _ le_rfl
        exact ⟨hone, by omega, fun _ => by omega⟩
    · nofun

/-- Where no neighbours have one value, one counts. -/
theorem sameCount_of_isChain (mainValue : ℕ) {normal : List UInt8}
    (h : normal.IsChain fun a b => getCardValue a ≠ getCardValue b) : sameCount mainValue normal = 1 := by
  have hchain : ∀ (l : List UInt8) (c : UInt8),
      (c :: l).IsChain (fun a b => getCardValue a ≠ getCardValue b) →
        maxSameCount mainValue 1 (getCardLogicValue mainValue c) l = 1 := by
    intro l
    induction l with
    | nil => exact fun _ _ => rfl
    | cons d l ih =>
      intro c h
      obtain ⟨hne, hrest⟩ := List.isChain_cons_cons.1 h
      have hlogic : getCardLogicValue mainValue d ≠ getCardLogicValue mainValue c := fun heq =>
        hne ((logicValue_inj mainValue d c).1 heq).symm
      cases l with
      | nil =>
        rw [maxSameCount, if_neg hlogic]
        rfl
      | cons e l =>
        rw [maxSameCount, if_neg hlogic]
        · exact ih d hrest
        · nofun
  cases normal with
  | nil => rfl
  | cons c l => exact hchain l c h

theorem one_le_sameCount (mainValue : ℕ) (normal : List UInt8) : 1 ≤ sameCount mainValue normal :=
  (maxSameCount_le mainValue _ 1 _ le_rfl).1

/-- In five cards that are not of one rank no more than three count. -/
theorem FromDecks.sameCount_le (h : FromDecks cards) (hwild : 0 < wildCount mainValue cards)
    (hnot : ¬ Uniform mainValue cards) (hfive : cards.length = 5) :
    sameCount mainValue (others mainValue cards) ≤ 3 := by
  have hlength := length_others_add mainValue cards
  have htwo := (@FromDecks.wildCount_le mainValue cards h).1
  have hranks := h.not_oneRank hwild hnot (by omega)
  have hfour : (others mainValue cards).length ≤ 4 := by omega
  rw [sameCount]
  generalize others mainValue cards = normal at hranks hfour
  match normal with
  | [] => exact absurd (fun _ ha => absurd ha List.not_mem_nil) hranks
  | c :: rest =>
    have hdiffer : ∃ x ∈ rest, getCardLogicValue mainValue x ≠ getCardLogicValue mainValue c := by
      by_contra hall
      push Not at hall
      have hvalue : ∀ x ∈ c :: rest, getCardValue x = getCardValue c := fun x hx => by
        rcases List.mem_cons.1 hx with rfl | hx
        · rfl
        · exact (logicValue_inj mainValue x c).1 (hall x hx)
      exact hranks fun a ha b hb => (hvalue a ha).trans (hvalue b hb).symm
    have := (maxSameCount_le mainValue rest 1 _ le_rfl).2.2 hdiffer
    rw [List.length_cons] at hfour
    change maxSameCount mainValue 1 (getCardLogicValue mainValue c) rest ≤ 3
    omega

/-- Every card has the value of the first or of the last. -/
def HeadTail (normal : List UInt8) : Prop :=
  1 < normal.length ∧ ∀ c ∈ (normal.drop 1).dropLast, getCardValue c = getCardValue (normal.headD 0) ∨
    getCardValue c = getCardValue (normal.getLastD 0)

/-- The cards of a three with a pair before they are sorted. -/
def fullCards (mainValue : ℕ) (normal : List UInt8) (magicCount : ℕ) : List UInt8 :=
  let head := normal.headD 0
  let tail := normal.getLastD 0
  let middle := (normal.drop 1).dropLast
  let headCount := 1 + middle.countP fun c => getCardValue c = getCardValue head
  let tailCount := 1 + middle.countP fun c =>
    getCardValue c ≠ getCardValue head ∧ getCardValue c = getCardValue tail
  normal ++ (threeDoubleValues mainValue head tail headCount tailCount magicCount).map
    (makeCardData · 0)

theorem length_fullCards (mainValue : ℕ) (normal : List UInt8) (magicCount : ℕ) :
    (fullCards mainValue normal magicCount).length = normal.length + magicCount := by
  rw [fullCards, List.length_append, List.length_map, length_threeDoubleValues]

theorem threeDouble_eq (mainValue : ℕ) (normal : List UInt8) (magicCount : ℕ)
    [Decidable (HeadTail normal)] : threeDouble mainValue normal magicCount =
      if HeadTail normal then (sortByCount mainValue (fullCards mainValue normal magicCount)).map some
      else some none := by
  unfold threeDouble
  dsimp only
  split_ifs with h h' h'
  · rfl
  · exact absurd h h'
  · exact absurd h' h
  · rfl

/-- **What `MagicCardData` makes of a play**: the play itself where nothing
is wild or all is, cards of one rank, a three with a pair, a line, or else
the play again. -/
inductive Resolved (mainValue : ℕ) (cards : List UInt8) : List UInt8 → Prop
  | raw (hnone : wildCount mainValue cards = 0 ∨ others mainValue cards = []) :
      Resolved mainValue cards cards
  | uniform (hsame : Uniform mainValue cards) : Resolved mainValue cards
      (List.replicate (wildCount mainValue cards) ((others mainValue cards).headD 0) ++
        others mainValue cards)
  | full {result : List UInt8} (hlen : cards.length = 5) (hwild : 0 < wildCount mainValue cards)
      (hnot : ¬ Uniform mainValue cards) (hshape : HeadTail (others mainValue cards))
      (hsort : sortByCount mainValue (fullCards mainValue (others mainValue cards)
        (wildCount mainValue cards)) = some result) : Resolved mainValue cards result
  | line {idxs : List ℕ} (hidxs : idxs = upward ∨ idxs = downward)
      (hwild : 0 < wildCount mainValue cards) (hnot : ¬ Uniform mainValue cards)
      (hfull : cards.length = 5 → ¬ HeadTail (others mainValue cards))
      (hlink : (sameCount mainValue (others mainValue cards) = 1 ∧ cards.length = 5) ∨
        ((sameCount mainValue (others mainValue cards) = 2 ∨
          sameCount mainValue (others mainValue cards) = 3) ∧ cards.length = 6))
      (hdone : (GuanDan.line (others mainValue cards) (wildCount mainValue cards)
        (sameCount mainValue (others mainValue cards)) idxs).Done)
      (hfirst : idxs = downward → ¬ (GuanDan.line (others mainValue cards) (wildCount mainValue cards)
        (sameCount mainValue (others mainValue cards)) upward).Done) :
      Resolved mainValue cards (sortCardList mainValue (GuanDan.line (others mainValue cards)
        (wildCount mainValue cards) (sameCount mainValue (others mainValue cards)) idxs).result)
  | copy (hwild : 0 < wildCount mainValue cards) (hne : others mainValue cards ≠ [])
      (hnot : ¬ Uniform mainValue cards)
      (hfull : cards.length = 5 → ¬ HeadTail (others mainValue cards))
      (hline : (sameCount mainValue (others mainValue cards) = 1 ∧ cards.length = 5) ∨
        ((sameCount mainValue (others mainValue cards) = 2 ∨
          sameCount mainValue (others mainValue cards) = 3) ∧ cards.length = 6) →
        ∀ idxs, idxs = upward ∨ idxs = downward → ¬ (GuanDan.line (others mainValue cards)
          (wildCount mainValue cards) (sameCount mainValue (others mainValue cards)) idxs).Done) :
      Resolved mainValue cards cards

/-- **A play of the decks is resolved.** -/
theorem FromDecks.resolved (h : FromDecks cards) (hmax : cards.length ≤ maxCount) :
    ∃ result, magicCardData mainValue cards = some result ∧ Resolved mainValue cards result := by
  have hlength := length_others_add mainValue cards
  have hmagic : (∃ c ∈ cards, IsMagic mainValue c) ↔ wildCount mainValue cards ≠ 0 := by
    rw [wildCount, ← Nat.pos_iff_ne_zero, List.countP_pos_iff]
    simp
  rw [magicCardData_eq, if_neg (not_lt.2 hmax)]
  change ∃ result, (if wildCount mainValue cards = 0 ∨ _ then _ else _) = some result ∧ _
  split_ifs with hnone huniform
  · exact ⟨cards, rfl, .raw hnone⟩
  · push Not at hnone
    exact ⟨_, rfl, .uniform ⟨hmagic.2 hnone.1, hnone.2, huniform⟩⟩
  push Not at hnone
  have hwild := Nat.pos_of_ne_zero hnone.1
  have hnot : ¬ Uniform mainValue cards := fun hu => huniform hu.2.2
  have hcolored : Colored (others mainValue cards) := h.colored
  have hmagicLine : (cards.length = 5 → ¬ HeadTail (others mainValue cards)) → ∃ result,
      magicLine mainValue cards (sameCount mainValue (others mainValue cards)) = some result ∧
        Resolved mainValue cards result := by
    intro hfull
    have hgood : ¬ ∃ c ∈ others mainValue cards,
        c ≠ 0 ∧ (getCardValue c = 0 ∨ 0x60 ≤ getCardColor c) := by
      rintro ⟨c, hc, -, hvalue | hcolor⟩
      · have := (hcolored c hc).1
        omega
      · have hle := (h.valued c (List.mem_of_mem_filter hc)).2
        exact absurd (UInt8.le_trans hcolor hle) (by decide)
    unfold magicLine
    by_cases hlink : (sameCount mainValue (others mainValue cards) = 1 ∧ cards.length = 5) ∨
        ((sameCount mainValue (others mainValue cards) = 2 ∨
          sameCount mainValue (others mainValue cards) = 3) ∧ cards.length = 6)
    · have hfill := @Colored.fillLines_eq mainValue _ _ (wildCount mainValue cards) hcolored (by omega)
        (one_le_sameCount mainValue (others mainValue cards))
      rw [if_pos hlink, if_neg hgood, show (cards.countP fun c => IsMagic mainValue c) =
        wildCount mainValue cards from rfl, hfill, Option.map_some]
      split_ifs with hup hdown
      · exact ⟨_, rfl, .line (.inl rfl) hwild hnot hfull hlink hup (by rintro ⟨⟩)⟩
      · exact ⟨_, rfl, .line (.inr rfl) hwild hnot hfull hlink hdown fun _ => hup⟩
      · refine ⟨_, rfl, .copy hwild hnone.2 hnot hfull fun _ idxs hidxs => ?_⟩
        rcases hidxs with rfl | rfl
        · exact hup
        · exact hdown
    · rw [if_neg hlink]
      exact ⟨_, rfl, .copy hwild hnone.2 hnot hfull fun hlink' => absurd hlink' hlink⟩
  dsimp only
  rw [show (cards.countP fun c => IsMagic mainValue c) = wildCount mainValue cards from rfl]
  classical
  by_cases hfive : cards.length = 5
  · rw [if_pos ⟨hfive, h.sameCount_le hwild hnot hfive⟩, threeDouble_eq]
    by_cases hshape : HeadTail (others mainValue cards)
    · obtain ⟨sorted, hsorted, -⟩ := @sortByCount_spec mainValue
        (fullCards mainValue (others mainValue cards) (wildCount mainValue cards)) (by
          rw [length_fullCards]
          omega)
      rw [if_pos hshape, hsorted]
      exact ⟨sorted, rfl, .full hfive hwild hnot hshape hsorted⟩
    · rw [if_neg hshape]
      exact hmagicLine fun _ => hshape
  · rw [if_neg fun hlen => hfive hlen.1]
    exact hmagicLine fun hlen => absurd hlen hfive

end GameServer.GuanDan
