import GameServer.DouDizhu.Model.Indices
import GameServer.DouDizhu.Cards
import GameServer.Common.Blocks
/-!
# Dou Dizhu — indices stay in their arrays

On the cards that are sent the type, the comparison and the removal use
no index behind the last card, so that up to twenty cards stay in their
arrays. Of more the analysis reads on behind the twentieth, unless it gives
up before on more than four equal cards in a row (`CutShort`). The count
is never compared with the arrays.
-/

namespace GameServer.DouDizhu

variable {cards data run : List UInt8} {count : ℕ} {runs : List (List UInt8)}
variable {j : ℕ}

/-! ## The rows of the analysis -/

/-- A block is written behind what is in its row. -/
theorem row_le (hne : run ≠ []) (hlen : run.length ≤ 4) {result : AnalyseResult} {i : ℕ}
    (hrows : ∀ k : Fin 4, (result k).length * (k + 1) ≤ i) :
    (result (Fin.ofNat 4 (run.length - 1))).length * run.length ≤ i ∧
      ∀ k : Fin 4, (Function.update result (Fin.ofNat 4 (run.length - 1))
        (result (Fin.ofNat 4 (run.length - 1)) ++ [run]) k).length * (k + 1) ≤ i + run.length := by
  have hpos := List.length_pos_iff.2 hne
  have hk : (Fin.ofNat 4 (run.length - 1)).val + 1 = run.length := by
    simp only [Fin.val_ofNat]
    omega
  have hrow := hrows (Fin.ofNat 4 (run.length - 1))
  rw [hk] at hrow
  refine ⟨hrow, fun k => ?_⟩
  by_cases h : k = Fin.ofNat 4 (run.length - 1)
  · rw [h, Function.update_self, List.length_append, List.length_singleton, hk, Nat.succ_mul]
    omega
  · rw [Function.update_of_ne h]
    have := hrows k
    omega

theorem rows_le : ∀ (runs : List (List UInt8)) (result last : AnalyseResult) (i : ℕ),
    (∀ run ∈ runs, run ≠ []) → (∀ k : Fin 4, (result k).length * (k + 1) ≤ i) →
    analyseRuns runs result = some last →
    ∀ k : Fin 4, (last k).length * (k + 1) ≤ i + runs.flatten.length
  | [], result, last, i, _, hrows, h => by
    cases h
    exact hrows
  | run :: runs, result, last, i, hne, hrows, h => by
    obtain ⟨hrun, hrest⟩ := List.forall_mem_cons.1 hne
    rw [analyseRuns] at h
    dsimp only at h
    split_ifs at h with hlong
    · cases h
      simp
    · have := rows_le runs _ last (i + run.length) hrest (row_le hrun (by omega) hrows).2 h
      rw [List.flatten_cons, List.length_append]
      intro k
      have := this k
      omega

/-- **The analysis uses no index behind the cards.** -/
theorem lt_of_mem_analyseIndices : ∀ (runs : List (List UInt8)) (i : ℕ) (result : AnalyseResult),
    (∀ run ∈ runs, run ≠ []) → (∀ k : Fin 4, (result k).length * (k + 1) ≤ i) →
    i + runs.flatten.length ≤ count → ∀ j ∈ analyseIndices count runs i result, j < count
  | [], _, _, _, _, _ => nofun
  | run :: runs, i, result, hne, hrows, hcount => by
    obtain ⟨hrun, hrest⟩ := List.forall_mem_cons.1 hne
    rw [List.flatten_cons, List.length_append] at hcount
    intro j hj
    rw [analyseIndices, List.mem_append] at hj
    obtain hj | hj := hj
    · have := (List.mem_range'_1.1 hj).2
      omega
    · split_ifs at hj with hlong
      · cases hj
      · have hrow := row_le hrun (by omega) hrows
        obtain hj | hj := List.mem_append.1 hj
        · obtain ⟨m, hm, rfl⟩ := List.mem_map.1 hj
          have := List.mem_range.1 hm
          omega
        · exact lt_of_mem_analyseIndices runs _ _ hrest hrow.2 (by omega) j hj

theorem lt_of_mem_lineIndices {r : AnalyseResult} {k : Fin 4} (hpos : 0 < (r k).length)
    (hj : j ∈ lineIndices r k) : j < (r k).length * (k + 1) := by
  rw [lineIndices] at hj
  obtain rfl | hj := List.mem_cons.1 hj
  · exact Nat.mul_pos hpos (Nat.succ_pos _)
  · split_ifs at hj
    · cases hj
    · obtain ⟨i, hi, rfl⟩ := List.mem_map.1 hj
      have := (List.mem_range'_1.1 (List.mem_of_mem_take hi)).2
      exact Nat.mul_lt_mul_of_pos_right (by omega) (Nat.succ_pos _)

theorem lt_of_mem_analysedIndices {r : AnalyseResult} {n : ℕ}
    (hrows : ∀ k : Fin 4, (r k).length * (k + 1) ≤ n) (hj : j ∈ analysedIndices r count) :
    j < n := by
  have hline : ∀ k : Fin 4, 0 < (r k).length → j ∈ lineIndices r k → j < n := fun k hpos hj =>
    (lt_of_mem_lineIndices hpos hj).trans_le (hrows k)
  rw [analysedIndices] at hj
  split_ifs at hj
  · cases hj
  · exact hline 2 (by omega) hj
  · cases hj
  · exact hline 1 (by omega) hj
  · exact hline 0 (by omega) hj
  · cases hj

/-! ## The functions -/

theorem lt_of_mem_analysebCardDataIndices (hj : j ∈ analysebCardDataIndices cards) :
    j < cards.length := by
  refine lt_of_mem_analyseIndices _ 0 _ (fun run hrun => List.ne_nil_of_mem_splitBy hrun)
    (fun k => by simp) ?_ j hj
  rw [List.flatten_splitBy, Nat.zero_add]

/-- **The type of a play is found without an index behind its cards.** -/
theorem lt_of_mem_getCardTypeIndices (hj : j ∈ getCardTypeIndices cards) :
    j < cards.length := by
  match cards with
  | [] => cases hj
  | [_] => cases hj
  | [_, _] =>
    have hlt : ∀ j ∈ [0, 1], j < 2 := by decide
    exact hlt j hj
  | a :: b :: c :: rest =>
    obtain hj | hj := List.mem_append.1 hj
    · exact lt_of_mem_analysebCardDataIndices hj
    · cases hr : analysebCardData (a :: b :: c :: rest) with
      | none =>
        rw [hr] at hj
        cases hj
      | some r =>
        rw [hr] at hj
        have hrows := rows_le _ _ _ 0 (fun run hrun => List.ne_nil_of_mem_splitBy hrun)
          (fun k => by simp) hr
        rw [List.flatten_splitBy, Nat.zero_add] at hrows
        exact lt_of_mem_analysedIndices hrows hj

theorem lt_of_mem_compareCardIndices {first : List UInt8}
    (hj : j ∈ compareCardIndices first cards) : j < cards.length := by
  obtain hj | hj := List.mem_append.1 hj
  · exact lt_of_mem_getCardTypeIndices hj
  · cases hfirst : getCardType first with
    | none =>
      simp only [hfirst] at hj
      cases hj
    | some firstType =>
      cases hnext : getCardType cards with
      | none =>
        simp only [hfirst, hnext] at hj
        cases hj
      | some nextType =>
        simp only [hfirst, hnext] at hj
        split_ifs at hj with hno
        · cases hj
        · have hpos : 0 < cards.length := by
            refine List.length_pos_iff.2 ?_
            rintro rfl
            exact hno (.inl (Option.some.inj hnext).symm)
          have hzero : j ∈ [0] → j < cards.length := by
            intro h
            rwa [List.mem_singleton.1 h]
          split at hj
          all_goals first
            | exact hzero hj
            | exact (List.mem_append.1 hj).elim lt_of_mem_analysebCardDataIndices hzero

/-- Cards are looked for in the copy of the hand. -/
theorem lt_of_mem_strikeIndices : ∀ (cards : List UInt8) (i : ℕ) (data : List UInt8),
    ∀ j ∈ strikeIndices cards i data, j < i + cards.length ∨ j < data.length
  | [], _, _ => nofun
  | card :: cards, i, data => by
    intro j hj
    rw [List.length_cons]
    simp only [strikeIndices, List.mem_append] at hj
    obtain (hj | hj) | hj := hj
    · split_ifs at hj
      · cases hj
      · rw [List.mem_singleton] at hj
        omega
    · have := List.mem_range.1 hj
      omega
    · have := lt_of_mem_strikeIndices cards (i + 1) _ j hj
      rw [List.length_set] at this
      omega

theorem lt_of_mem_removeCardListIndices (hlen : cards.length ≤ maxCount)
    (hj : j ∈ removeCardListIndices cards data count) : j < maxCount := by
  rw [removeCardListIndices] at hj
  split_ifs at hj with hcount
  · cases hj
  · obtain hj | hj := List.mem_append.1 hj
    · have := lt_of_mem_strikeIndices _ _ _ j hj
      have := List.length_take_le count data
      omega
    · have := List.mem_range.1 hj
      omega

/-! ## More than twenty cards -/

/-- The analysis gives up on more than four equal cards in a row, and on
the first that differs from them, before it reads a twenty-first card. -/
def CutShort (cards : List UInt8) : Prop :=
  ∃ before run after, blocks getCardLogicValue cards = before ++ run :: after ∧ 4 < run.length ∧
    (before ++ [run]).flatten.length < maxCount

/-- It reads on where it is not cut short. -/
theorem exists_mem_analyseIndices : ∀ (runs : List (List UInt8)) (i : ℕ) (result : AnalyseResult),
    i ≤ maxCount → i + runs.flatten.length = count → maxCount < count →
    (∀ before run after, runs = before ++ run :: after → 4 < run.length →
      maxCount ≤ i + (before ++ [run]).flatten.length) →
    ∃ j ∈ analyseIndices count runs i result, maxCount ≤ j
  | [], i, _, hi, hcount, hlt, _ => by
    rw [List.flatten_nil, List.length_nil] at hcount
    omega
  | run :: runs, i, result, hi, hcount, hlt, hlong => by
    rw [List.flatten_cons, List.length_append] at hcount
    rw [analyseIndices]
    by_cases hread : maxCount ≤ i + run.length
    · refine ⟨maxCount, List.mem_append_left _ (List.mem_range'_1.2 ?_), le_rfl⟩
      omega
    · have hshort : ¬ run.length > 4 := fun h => by
        have := hlong [] run runs rfl h
        simp only [List.nil_append, List.flatten_singleton] at this
        omega
      obtain ⟨j, hj, hle⟩ := exists_mem_analyseIndices runs (i + run.length) (Function.update result
        (Fin.ofNat 4 (run.length - 1)) (result (Fin.ofNat 4 (run.length - 1)) ++ [run])) (by omega)
        (by omega) hlt fun before run' after h h' => by
          have := hlong (run :: before) run' after (by rw [h]; rfl) h'
          rw [List.cons_append, List.flatten_cons, List.length_append] at this
          omega
      rw [if_neg hshort]
      exact ⟨j, List.mem_append_right _ (List.mem_append_right _ hj), hle⟩

/-- **An analysis that is cut short** finds nothing, and stays in its
arrays. -/
theorem analyse_of_cutShort (hlong : 4 < run.length) (after : List (List UInt8)) :
    ∀ (before : List (List UInt8)) (i : ℕ) (result : AnalyseResult), (∀ b ∈ before, b ≠ []) →
    (∀ k : Fin 4, (result k).length * (k + 1) ≤ i) →
    i + (before ++ [run]).flatten.length < maxCount →
    analyseRuns (before ++ run :: after) result = some (fun _ => []) ∧
      ∀ j ∈ analyseIndices count (before ++ run :: after) i result, j < maxCount
  | [], i, result, _, _, hcut => by
    rw [List.nil_append, List.flatten_singleton] at hcut
    refine ⟨by rw [List.nil_append, analyseRuns, if_pos hlong], fun j hj => ?_⟩
    rw [List.nil_append, analyseIndices, if_pos hlong, List.append_nil] at hj
    have := (List.mem_range'_1.1 hj).2
    omega
  | b :: before, i, result, hne, hrows, hcut => by
    obtain ⟨hb, hrest⟩ := List.forall_mem_cons.1 hne
    rw [List.cons_append, List.flatten_cons, List.length_append] at hcut
    by_cases hblong : b.length > 4
    · refine ⟨by rw [List.cons_append, analyseRuns, if_pos hblong], fun j hj => ?_⟩
      rw [List.cons_append, analyseIndices, if_pos hblong, List.append_nil] at hj
      have := (List.mem_range'_1.1 hj).2
      omega
    · obtain ⟨hrow, hnext⟩ := row_le hb (by omega) hrows
      obtain ⟨hruns, hlt⟩ := analyse_of_cutShort hlong after before (i + b.length) _ hrest hnext
        (by omega)
      refine ⟨?_, fun j hj => ?_⟩
      · rw [List.cons_append, analyseRuns, if_neg hblong]
        rwa [if_neg (by omega)]
      · rw [List.cons_append, analyseIndices, if_neg hblong] at hj
        obtain hj | hj := List.mem_append.1 hj
        · have := (List.mem_range'_1.1 hj).2
          omega
        · obtain hj | hj := List.mem_append.1 hj
          · obtain ⟨m, hm, rfl⟩ := List.mem_map.1 hj
            have := List.mem_range.1 hm
            omega
          · exact hlt j hj

theorem getCardTypeIndices_of_three (h : 3 ≤ cards.length) : getCardTypeIndices cards =
    analysebCardDataIndices cards ++
      (analysebCardData cards).elim [] (analysedIndices · cards.length) := by
  match cards with
  | _ :: _ :: _ :: _ => rfl

/-- More than twenty cards that are not cut short are read behind their
array. -/
theorem exists_mem_getCardTypeIndices (hlen : maxCount < cards.length) (hcut : ¬ CutShort cards) :
    ∃ j ∈ getCardTypeIndices cards, maxCount ≤ j := by
  have hmax : maxCount = 20 := rfl
  obtain ⟨j, hj, hle⟩ := @exists_mem_analyseIndices cards.length (blocks getCardLogicValue cards) 0
    (fun _ => []) (Nat.zero_le _) (by rw [flatten_blocks, Nat.zero_add]) hlen
    fun before run after h hlong => by
      by_contra hlt
      exact hcut ⟨before, run, after, h, hlong, by omega⟩
  rw [getCardTypeIndices_of_three (by omega)]
  exact ⟨j, List.mem_append_left _ hj, hle⟩

/-- Cards that are cut short have no type, and stay in their arrays. -/
theorem CutShort.getCardType (h : CutShort cards) (hlen : maxCount < cards.length) :
    getCardType cards = some .error ∧ ∀ j ∈ getCardTypeIndices cards, j < maxCount := by
  have hmax : maxCount = 20 := rfl
  obtain ⟨before, run, after, hblocks, hlong, hcut⟩ := h
  have hne : ∀ b ∈ before, b ≠ [] := fun b hb =>
    ne_nil_of_mem_blocks (by rw [hblocks]; exact List.mem_append_left _ hb)
  obtain ⟨hruns, hlt⟩ := @analyse_of_cutShort run cards.length hlong after before 0 (fun _ => []) hne
    (fun k => by simp) (by omega)
  rw [← hblocks] at hruns hlt
  have hnone : analysebCardData cards = some fun _ => [] := hruns
  rw [getCardTypeIndices_of_three (by omega), hnone]
  refine ⟨?_, fun j hj => ?_⟩
  · match cards, hlen with
    | _ :: _ :: _ :: _, _ =>
      rw [DouDizhu.getCardType, hnone]
      · rfl
      all_goals simp
  · exact (List.mem_append.1 hj).elim (hlt j) (by rintro ⟨⟩)

/-! ## Messages -/

namespace TableSink

variable {s : TableSink} {chair : Chair} {playing : Bool} {cardCount : UInt8}

/-- The message passes the checks before its cards are looked at. -/
def Looked (s : TableSink) (chair : Chair) (playing : Bool) (cardCount : UInt8)
    (cards : List UInt8) : Prop :=
  cards.length = cardCount.toNat ∧ s.gameStatus = .play ∧ playing = true ∧
    s.currentUser = some chair

/-- **Up to twenty cards** stay in their arrays. -/
theorem lt_of_mem_outCardIndices (hlen : cards.length ≤ maxCount)
    (hj : j ∈ s.outCardIndices chair cards) : j < maxCount := by
  rw [outCardIndices] at hj
  by_cases hcurrent : s.currentUser ≠ some chair
  · rw [if_pos hcurrent] at hj
    cases hj
  rw [if_neg hcurrent] at hj
  obtain hj | hj := List.mem_append.1 hj
  · exact (lt_of_mem_getCardTypeIndices hj).trans_le hlen
  by_cases herror : getCardType cards = some .error
  · rw [if_pos herror] at hj
    cases hj
  rw [if_neg herror] at hj
  obtain hj | hj := List.mem_append.1 hj
  · by_cases hturn : s.turnCardData = []
    · rw [if_pos hturn] at hj
      cases hj
    · rw [if_neg hturn] at hj
      exact (lt_of_mem_compareCardIndices hj).trans_le hlen
  by_cases hlegal : s.legalPlay cards = some true
  · rw [if_pos hlegal] at hj
    obtain hj | hj := List.mem_append.1 hj
    · exact lt_of_mem_removeCardListIndices hlen hj
    · split_ifs at hj
      · exact (List.mem_range.1 hj).trans_le hlen
      · cases hj
  · rw [if_neg hlegal] at hj
    cases hj

/-- **When a message stays in its arrays**: it is not looked at, it sends
up to twenty cards, or their analysis is cut short. -/
theorem message_in_arrays_iff (s : TableSink) (chair : Chair) (playing : Bool) (cardCount : UInt8)
    (cards : List UInt8) : (∀ j ∈ s.messageIndices chair playing cardCount cards, j < maxCount) ↔
      ¬ s.Looked chair playing cardCount cards ∨ cards.length ≤ maxCount ∨ CutShort cards := by
  by_cases hlooked : s.Looked chair playing cardCount cards
  · obtain ⟨hcount, hstatus, hplaying, hcurrent⟩ := hlooked
    rw [messageIndices, if_pos ⟨hcount, hstatus, hplaying⟩,
      or_iff_right (not_not.2 ⟨hcount, hstatus, hplaying, hcurrent⟩)]
    by_cases hlen : cards.length ≤ maxCount
    · exact iff_of_true (fun j hj => lt_of_mem_outCardIndices hlen hj) (.inl hlen)
    rw [or_iff_right hlen]
    rw [not_le] at hlen
    have hlist : s.outCardIndices chair cards = getCardTypeIndices cards ++
        if getCardType cards = some .error then [] else
          (if s.turnCardData = [] then [] else compareCardIndices s.turnCardData cards) ++
          if s.legalPlay cards = some true then
            removeCardListIndices cards (s.handCardData chair) (s.handCardCount chair) ++
              if (s.takeOut chair cards).isSome then List.range cards.length else []
          else [] := if_neg (not_not.2 hcurrent)
    rw [hlist]
    constructor
    · intro h
      by_contra hcut
      obtain ⟨j, hj, hle⟩ := exists_mem_getCardTypeIndices hlen hcut
      exact absurd (h j (List.mem_append_left _ hj)) (not_lt.2 hle)
    · intro hcut
      obtain ⟨htype, hlt⟩ := hcut.getCardType hlen
      rw [if_pos htype, List.append_nil]
      exact hlt
  · refine iff_of_true (fun j hj => ?_) (.inl hlooked)
    rw [messageIndices] at hj
    split_ifs at hj with hread
    · rw [outCardIndices, if_pos fun h => hlooked ⟨hread.1, hread.2.1, hread.2.2, h⟩] at hj
      cases hj
    · cases hj

/-- Chair 0 is to play. -/
def leading : TableSink := { gameStatus := .play, currentUser := some 0 }

/-- **Twenty-one cards are read behind their array**: the analysis of seven
triples writes a block there too. -/
theorem message_leaves_array :
    ¬ ∀ j ∈ leading.messageIndices 0 true 21
      [0x03, 0x13, 0x23, 0x04, 0x14, 0x24, 0x05, 0x15, 0x25, 0x06, 0x16, 0x26, 0x07, 0x17, 0x27,
        0x08, 0x18, 0x28, 0x09, 0x19, 0x29], j < maxCount := by
  decide +kernel

end TableSink

end GameServer.DouDizhu
