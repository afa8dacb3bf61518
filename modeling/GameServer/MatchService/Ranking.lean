import GameServer.MatchService.Model.Ranking
import Mathlib.Data.List.Perm.Basic
import Mathlib.Data.List.Induction
/-!
# MatchService — the order and the ranks

The binary insertion sorts whatever the scores are, users of one score stay
in the order they come in, and the rank of a user is the place of the first
with his score.
-/

namespace GameServer.MatchService

variable {score front back : List MatchScore} {x : ℤ} {i : ℕ}

/-- In the order of the ranking. -/
def Ranked (score : List MatchScore) : Prop := score.Pairwise fun a b => b.lScore ≤ a.lScore

/-! ### The search -/

/-- **The search finds the last place a score may have**: those before it are
not below, those from it on are. -/
theorem searchPlace_spec (h : Ranked front) {left right : ℤ} (hleft : 0 ≤ left)
    (hle : left ≤ right + 1) (hright : right < front.length)
    (habove : ∀ k (hk : k < front.length), (k : ℤ) < left → x ≤ front[k].lScore)
    (hbelow : ∀ k (hk : k < front.length), right < k → front[k].lScore < x) :
    ∃ r ≤ front.length, searchPlace (front ++ back) x left right = some (r : ℤ) ∧
      (∀ s ∈ front.take r, x ≤ s.lScore) ∧ ∀ s ∈ front.drop r, s.lScore < x := by
  fun_induction searchPlace (front ++ back) x left right with
  | case1 left right hlt mid ih₁ ih₂ =>
    have hdef : mid = (left + right) / 2 := rfl
    have hmid : mid.toNat < front.length := by omega
    have hread : (front ++ back)[mid.toNat]? = some front[mid.toNat] := by
      rw [List.getElem?_append_left hmid, List.getElem?_eq_getElem hmid]
    have hsorted : ∀ k l (hk : k < front.length) (hl : l < front.length), k ≤ l →
        front[l].lScore ≤ front[k].lScore := fun k l hk hl hkl => by
      obtain hlt | rfl := Nat.lt_or_eq_of_le hkl
      exacts [List.pairwise_iff_getElem.1 h k l hk hl hlt, Int.le_refl _]
    rw [hread, Option.bind_eq_bind, Option.bind_some]
    split_ifs with hgt
    · refine ih₁ hleft (by omega) (by omega) habove fun k hk hlt => ?_
      exact Int.lt_of_le_of_lt (hsorted _ k hmid hk (by omega)) hgt
    · refine ih₂ (by omega) (by omega) hright (fun k hk hlt => ?_) hbelow
      exact Int.le_trans (Int.not_lt.1 hgt) (hsorted k _ hk hmid (by omega))
  | case2 left right hlt =>
    refine ⟨left.toNat, by omega, by rw [Int.toNat_of_nonneg hleft], fun s hs => ?_, fun s hs => ?_⟩
    · obtain ⟨k, hk, rfl⟩ := List.mem_take_iff_getElem.1 hs
      exact habove k (by omega) (by omega)
    · obtain ⟨k, hk, rfl⟩ := List.mem_drop_iff_getElem.1 hs
      exact hbelow _ (by omega) (by omega)

/-! ### The moves -/

/-- The entries move up over the one that goes to their front. -/
theorem moveUp_set (new : MatchScore) {low : List MatchScore} : ∀ (old : MatchScore)
    (rest : List MatchScore), ∃ moved,
      moveUp front.length (front.length + low.length) (front ++ low ++ old :: rest) = some moved ∧
        moved.set front.length new = front ++ new :: low ++ rest := by
  induction low using List.reverseRecOn with
  | nil =>
    intro old rest
    refine ⟨front ++ old :: rest, ?_, by simp⟩
    rw [List.append_nil, List.length_nil, Nat.add_zero]
    cases front.length with
    | zero => rfl
    | succ n => rw [moveUp, if_neg (Nat.not_succ_le_self n)]
  | append_singleton low y ih =>
    intro old rest
    obtain ⟨moved, hmoved, hset⟩ := ih y (y :: rest)
    have hread : (front ++ (low ++ [y]) ++ old :: rest)[front.length + low.length]? = some y := by
      simp
    have hwrite : (front ++ (low ++ [y]) ++ old :: rest).set (front.length + low.length + 1) y =
        front ++ low ++ y :: y :: rest := by
      simp [Nat.add_assoc]
    refine ⟨moved, ?_, by simpa using hset⟩
    rw [List.length_append, List.length_singleton, ← Nat.add_assoc, moveUp,
      if_pos (Nat.le_add_right _ _), hread, Option.bind_eq_bind, Option.bind_some, hwrite, hmoved]

/-- **A round puts the next entry in its place among those before it.** -/
theorem insertScore_spec (h : Ranked front) (new : MatchScore) (rest : List MatchScore) :
    ∃ sorted, insertScore front.length (front ++ new :: rest) = some (sorted ++ rest) ∧
      sorted.Perm (new :: front) ∧ Ranked sorted := by
  obtain ⟨r, hr, hsearch, habove, hbelow⟩ := @searchPlace_spec front (new :: rest) new.lScore h 0
    (front.length - 1) (by omega) (by omega) (by omega) (by omega) (by omega)
  obtain ⟨moved, hmoved, hset⟩ := @moveUp_set (front.take r) new (front.drop r) new rest
  rw [List.take_append_drop, List.length_take_of_le hr, List.length_drop, Nat.add_sub_cancel' hr]
    at hmoved
  refine ⟨front.take r ++ new :: front.drop r, ?_, ?_, ?_⟩
  · rw [insertScore, List.getElem?_append_right (Nat.le_refl _), Nat.sub_self]
    simp only [List.getElem?_cons_zero, Option.bind_eq_bind, Option.bind_some, hsearch,
      Int.toNat_natCast, hmoved]
    rw [← hset, List.length_take_of_le hr]
    rfl
  · conv_rhs => rw [← List.take_append_drop r front]
    exact List.perm_middle
  · have hparts : (front.take r ++ front.drop r).Pairwise fun a b => b.lScore ≤ a.lScore := by
      rwa [List.take_append_drop]
    obtain ⟨hfront, hlow, hcross⟩ := List.pairwise_append.1 hparts
    refine List.pairwise_append.2 ⟨hfront, List.pairwise_cons.2
      ⟨fun s hs => Int.le_of_lt (hbelow s hs), hlow⟩, fun s hs t ht => ?_⟩
    rcases List.mem_cons.1 ht with rfl | ht
    · exact habove s hs
    · exact hcross s hs t ht

theorem insertScores_spec : ∀ {rest front : List MatchScore}, Ranked front →
    ∃ sorted, insertScores rest.length front.length (front ++ rest) = some sorted ∧
      sorted.Perm (front ++ rest) ∧ Ranked sorted := by
  intro rest
  induction rest with
  | nil =>
    intro front h
    exact ⟨front, by rw [List.append_nil]; rfl, by rw [List.append_nil], h⟩
  | cons new rest ih =>
    intro front h
    obtain ⟨sorted, hins, hperm, hsorted⟩ := insertScore_spec h new rest
    obtain ⟨last, hlast, hperm', hranked⟩ := ih hsorted
    refine ⟨last, ?_, ?_, hranked⟩
    · rw [List.length_cons, insertScores, hins, Option.bind_some, ← hlast, hperm.length_eq]
      rfl
    · exact hperm'.trans ((hperm.append_right rest).trans List.perm_middle.symm)

/-! ### The ranks -/

theorem Ranked.filter_append (h : Ranked score) (x : ℤ) :
    score.filter (x < ·.lScore) ++ score.filter (¬ x < ·.lScore) = score := by
  induction score with
  | nil => rfl
  | cons s score ih =>
    obtain ⟨hs, h⟩ := List.pairwise_cons.1 h
    by_cases hx : x < s.lScore
    · rw [List.filter_cons_of_pos (by simpa using hx), List.filter_cons_of_neg (by simpa using hx),
        List.cons_append, ih h]
    · have hnone : ∀ t ∈ s :: score, ¬ x < t.lScore := by
        rintro t (_ | ⟨_, ht⟩)
        exacts [hx, Int.not_lt.2 (Int.le_trans (hs t ht) (Int.not_lt.1 hx))]
      rw [List.filter_eq_nil_iff.2 (by simpa using hnone),
        List.filter_eq_self.2 (by simpa using hnone), List.nil_append]

/-- The rank as it is counted, as long as it fits. -/
theorem foldl_raiseRank {getUserScore : ℕ → ℤ} {user : ℕ} {users : List ℕ} : ∀ {wRank : ℕ},
    wRank + users.countP (getUserScore user < getUserScore ·) < 2 ^ 16 →
      users.foldl (raiseRank getUserScore user) wRank =
        wRank + users.countP (getUserScore user < getUserScore ·) := by
  induction users with
  | nil => exact fun _ => rfl
  | cons other users ih =>
    intro wRank h
    rw [List.foldl_cons, raiseRank]
    by_cases hother : getUserScore user < getUserScore other
    · have hne : other ≠ user := by
        rintro rfl
        exact Int.lt_irrefl _ hother
      rw [List.countP_cons_of_pos (by simpa using hother)] at h ⊢
      rw [if_pos ⟨hne, hother⟩, Nat.mod_eq_of_lt (by omega), ih (by omega)]
      omega
    · rw [List.countP_cons_of_neg (by simpa using hother)] at h ⊢
      rw [if_neg fun hboth => hother hboth.2, ih h]

/-- **The two rankings agree**: the array holds the members in order of
score, the rank of a member is one more than the members above him in it,
and at the place of his rank stands his score. -/
theorem getUserRank_agrees (g : GroupUsers) (getUserScore : ℕ → ℤ) (getTableID : ℕ → ℕ) :
    ∃ score, sortMapUser g getUserScore = some (g.onMatchUserMap.length, score) ∧
      score.Perm (g.onMatchUserMap.map fun user => ⟨user, getUserScore user⟩) ∧ Ranked score ∧
      ∀ user ∈ g.onMatchUserMap,
        getUserRank g getUserScore getTableID (some user) none =
          1 + score.countP (getUserScore user < ·.lScore) ∧
        score[score.countP (getUserScore user < ·.lScore)]?.map (·.lScore) =
          some (getUserScore user) := by
  have hlt : g.onMatchUserMap.length < 2 ^ 16 := Nat.lt_of_le_of_lt g.length_le g.startUserCount_lt
  obtain ⟨score, hscore, hperm, hranked⟩ : ∃ score,
      sortMapUser g getUserScore = some (g.onMatchUserMap.length, score) ∧
        score.Perm (g.onMatchUserMap.map fun user => ⟨user, getUserScore user⟩) ∧ Ranked score := by
    rw [sortMapUser, List.length_map, Nat.mod_eq_of_lt hlt]
    cases g.onMatchUserMap with
    | nil => exact ⟨[], rfl, List.Perm.refl _, List.Pairwise.nil⟩
    | cons user users =>
      obtain ⟨score, hsort, hperm, hranked⟩ := @insertScores_spec
        (users.map fun user => ⟨user, getUserScore user⟩) [⟨user, getUserScore user⟩]
        (List.pairwise_singleton ..)
      refine ⟨score, ?_, hperm, hranked⟩
      rw [List.length_map] at hsort
      rw [List.map_cons, List.length_cons, Nat.add_sub_cancel]
      exact congrArg _ hsort
  refine ⟨score, hscore, hperm, hranked, fun user hmem => ?_⟩
  have hown : ⟨user, getUserScore user⟩ ∈ score := hperm.mem_iff.2 (List.mem_map_of_mem hmem)
  have hcount : g.onMatchUserMap.countP (getUserScore user < getUserScore ·) =
      score.countP (getUserScore user < ·.lScore) := by
    rw [hperm.countP_eq, List.countP_map]
    rfl
  have hsplit := hranked.filter_append (getUserScore user)
  have hlast : ⟨user, getUserScore user⟩ ∈ score.filter (¬ getUserScore user < ·.lScore) :=
    List.mem_filter.2 ⟨hown, by simp⟩
  obtain ⟨s, rest, hrest⟩ := List.exists_cons_of_ne_nil (List.ne_nil_of_mem hlast)
  rw [hrest] at hsplit hlast
  constructor
  · have hlength := congrArg List.length hsplit
    rw [List.length_append, ← List.countP_eq_length_filter, List.length_cons, hperm.length_eq,
      List.length_map] at hlength
    rw [← hcount] at hlength ⊢
    exact foldl_raiseRank (by omega)
  -- the first of those that are not above has the score
  · have hget : (score.filter (getUserScore user < ·.lScore) ++ s :: rest)[
        (score.filter (getUserScore user < ·.lScore)).length]? = some s := by
      simp
    rw [hsplit, ← List.countP_eq_length_filter] at hget
    rw [hget, Option.map_some, Option.some_inj]
    have hs : s ∈ score.filter (¬ getUserScore user < ·.lScore) := by rw [hrest]; simp
    have hle : s.lScore ≤ getUserScore user := by simpa using (List.mem_filter.1 hs).2
    rw [← hsplit] at hranked
    rcases List.mem_cons.1 hlast with rfl | hmem
    · rfl
    · have hge := (List.pairwise_cons.1 (List.pairwise_append.1 hranked).2.1).1 _ hmem
      exact Int.le_antisymm hle hge

end GameServer.MatchService
