import GameServer.Dealing.Model.RandCardList
/-!
# The games — every shuffle deals the deck

What is in the buffer and what is left of the copy are the deck after
every round (`drawCards_perm`), whatever `rand` gives. So a full buffer
holds the deck, and a smaller one different cards of it
(`randCardList_deals`).
-/

namespace GameServer

variable {total count : ℕ} {data buffer : List UInt8}

/-- A round takes one of the cards that are left. -/
theorem drawCard_perm (htotal : total ≤ 2 ^ 8) (hdata : total ≤ data.length) (hcount : count < total)
    (hbuffer : count < buffer.length) (rand : ℕ) : ∃ data' buffer',
      drawCard (total - count) total rand count data buffer = some (data', buffer') ∧
      data'.length = data.length ∧ buffer'.length = buffer.length ∧
      (buffer'.take (count + 1) ++ data'.take (total - (count + 1))).Perm
        (buffer.take count ++ data.take (total - count)) := by
  have hposition : rand % (total - count) < total - count := Nat.mod_lt _ (by omega)
  have hbyte : rand % (total - count) % 2 ^ 8 = rand % (total - count) :=
    Nat.mod_eq_of_lt (by omega)
  rw [drawCard, if_neg (by omega)]
  simp only [hbyte]
  generalize rand % (total - count) = i at *
  have hi : i < data.length := by omega
  have hn : total - (count + 1) < data.length := by omega
  rw [List.getElem?_eq_getElem hi, List.getElem?_eq_getElem hn]
  refine ⟨_, _, rfl, List.length_set, List.length_set, ?_⟩
  have hleft : (data.take (total - count)).length = total - (count + 1) + 1 := by
    rw [List.length_take]
    omega
  have hi' : i < (data.take (total - count)).length := by omega
  have hdraw := draw_perm hleft hi'
  rw [List.getElem_take, List.getElem_take, ← List.take_set, List.take_take,
    Nat.min_eq_left (by omega)] at hdraw
  rw [← List.take_concat_get' _ _ (by rw [List.length_set]; exact hbuffer), List.getElem_set_self,
    List.take_set_of_le le_rfl, List.append_assoc]
  exact hdraw.append_left _

/-- **The rounds of a shuffle.** -/
theorem drawCards_perm (modulus : ℕ → ℕ) (hmodulus : ∀ k < total, modulus k = total - k)
    (htotal : total ≤ 2 ^ 8) (rand : ℕ → ℕ) : ∀ (rounds count : ℕ) (data buffer : List UInt8),
      count + rounds ≤ total → total ≤ data.length → count + rounds ≤ buffer.length →
      ∃ data' buffer' : List UInt8, drawCards modulus total rand rounds count data buffer = some buffer' ∧
        buffer'.length = buffer.length ∧
        (buffer'.take (count + rounds) ++ data'.take (total - (count + rounds))).Perm
          (buffer.take count ++ data.take (total - count)) := by
  intro rounds
  induction rounds with
  | zero =>
    intro count data buffer _ _ _
    exact ⟨data, buffer, rfl, rfl, List.Perm.refl _⟩
  | succ rounds ih =>
    intro count data buffer hcount hdata hbuffer
    obtain ⟨data₁, buffer₁, hdraw, hlen₁, hlen₁', hperm₁⟩ :=
      @drawCard_perm total count data buffer htotal hdata (by omega) (by omega) (rand count)
    obtain ⟨data₂, buffer₂, hrest, hlen₂, hperm₂⟩ :=
      ih (count + 1) data₁ buffer₁ (by omega) (by omega) (by omega)
    rw [Nat.add_right_comm, Nat.add_assoc] at hperm₂
    refine ⟨data₂, buffer₂, ?_, hlen₂.trans hlen₁', hperm₂.trans hperm₁⟩
    rw [drawCards, hmodulus count (by omega), hdraw]
    exact hrest

theorem drawAll_perm (rand : ℕ → ℕ) (hpos : 0 < data.length) (hbyte : data.length ≤ 2 ^ 8)
    (hbuffer : buffer.length = data.length) :
    ∃ buffer', drawAll data rand buffer data.length = some buffer' ∧ buffer'.Perm data := by
  obtain ⟨data', buffer', hdraw, hlen, hperm⟩ :=
    drawCards_perm (data.length - ·) (fun _ _ => rfl) hbyte rand data.length 0 data
      buffer (by omega) le_rfl (by omega)
  refine ⟨buffer', ?_, ?_⟩
  · rw [drawAll, Nat.max_eq_left hpos]
    exact hdraw
  · rw [Nat.zero_add, Nat.sub_self, List.take_zero, List.append_nil, List.take_zero,
      List.nil_append, Nat.sub_zero, List.take_length, ← hbuffer, ← hlen, List.take_length] at hperm
    exact hperm

/-- **Every shuffle deals the deck**, whatever `rand` gives: no index leaves
an array, a buffer as large as the deck holds its cards, and of the hold'em
deck a buffer of at least one card holds different ones. -/
theorem randCardList_deals (rand : ℕ → ℕ) :
    (∀ buffer : List UInt8, buffer.length = DouDizhu.fullCount →
      ∃ dealt, DouDizhu.fillCardBuffer rand buffer DouDizhu.fullCount = some dealt ∧
        dealt.Perm DouDizhu.cardData) ∧
    (∀ buffer : List UInt8, buffer.length = GuanDan.fullCount →
      ∃ dealt, GuanDan.fillCardBuffer rand buffer GuanDan.fullCount = some dealt ∧
        dealt.Perm GuanDan.cardData) ∧
    (∀ buffer : List UInt8, buffer.length = HongZhongMahjong.maxRepertory →
      ∃ dealt, HongZhongMahjong.randCardData rand buffer buffer.length = some dealt ∧
        dealt.Perm HongZhongMahjong.cardDataArray) ∧
    (∀ buffer : List UInt8, buffer.length = HongZhongMahjong.maxRepertoryHZ →
      ∃ dealt, HongZhongMahjong.randCardData rand buffer buffer.length = some dealt ∧
        dealt.Perm HongZhongMahjong.cardDataArrayHZ) ∧
    ∀ buffer : List UInt8, 0 < buffer.length → buffer.length ≤ TexasHoldem.cardData.length →
      ∃ dealt, TexasHoldem.randCardList rand buffer buffer.length = some dealt ∧
        dealt.length = buffer.length ∧ dealt.Nodup ∧ dealt ⊆ TexasHoldem.cardData := by
  refine ⟨fun buffer hlen => ?_, fun buffer hlen => ?_, fun buffer hlen => ?_, fun buffer hlen => ?_,
    fun buffer hpos hlen => ?_⟩
  · exact drawAll_perm rand (by decide) (by decide) hlen
  · exact drawAll_perm rand (by decide) (by decide) hlen
  · rw [HongZhongMahjong.randCardData, if_pos hlen, hlen]
    exact drawAll_perm rand (by decide) (by decide) hlen
  · rw [HongZhongMahjong.randCardData, if_neg (by rw [hlen]; decide), if_pos hlen, hlen]
    exact drawAll_perm rand (by decide) (by decide) hlen
  · obtain ⟨data', dealt, hdraw, hlen', hperm⟩ := drawCards_perm
      (fun k => max (TexasHoldem.cardData.length - k) 1) (fun k hk => Nat.max_eq_left (by omega))
      (by decide) rand buffer.length 0 TexasHoldem.cardData buffer (by omega) le_rfl (by omega)
    rw [List.take_zero, List.nil_append, Nat.zero_add, Nat.sub_zero, List.take_length, ← hlen',
      List.take_length] at hperm
    refine ⟨dealt, ?_, hlen', ?_, fun c hc => hperm.subset (List.mem_append_left _ hc)⟩
    · rw [TexasHoldem.randCardList, Nat.max_eq_left hpos]
      exact hdraw
    · exact (List.nodup_append.1 (hperm.symm.nodup (by decide))).1

theorem randCardList_deals_two : ∃ dealt, TexasHoldem.randCardList (fun k => k) [0, 0] 2 = some dealt ∧
    dealt.length = 2 ∧ dealt.Nodup ∧ dealt ⊆ TexasHoldem.cardData :=
  (randCardList_deals fun k => k).2.2.2.2 [0, 0] (by decide) (by decide)

/-- **A buffer of no cards is written to.** The loop draws a card before it
looks at the count. -/
theorem randCardList_of_empty : ¬ ∀ (rand : ℕ → ℕ) (buffer : List UInt8),
    buffer.length ≤ TexasHoldem.cardData.length →
      (TexasHoldem.randCardList rand buffer buffer.length).isSome := fun h =>
  absurd (h (fun _ => 0) [] (Nat.zero_le _)) (by decide)

end GameServer
