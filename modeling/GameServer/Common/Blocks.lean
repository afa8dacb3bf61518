import Mathlib.Data.List.GetD
import Mathlib.Data.List.SplitBy
import Mathlib.Data.Set.List
/-!
# Blocks of equal keys

The longest runs of one key in a list (`blocks`). They are the list again
(`flatten_blocks`); each is of one key (`key_eq_of_mem_blocks`); and in a
list that is sorted by the key they are of different keys, so that each
block has all entries of its key (`filter_eq_of_mem_blocks`).
-/

namespace GameServer

variable {α κ : Type*} [DecidableEq κ] {key : α → κ} {l : List α} {block : List α} {a b : α}
variable {m : ℕ}

/-- The longest runs of one key. -/
def blocks (key : α → κ) (l : List α) : List (List α) := l.splitBy fun a b => key b = key a

@[simp] theorem flatten_blocks (key : α → κ) (l : List α) : (blocks key l).flatten = l :=
  List.flatten_splitBy _ l

theorem ne_nil_of_mem_blocks (h : block ∈ blocks key l) : block ≠ [] := List.ne_nil_of_mem_splitBy h

theorem mem_of_mem_blocks (h : block ∈ blocks key l) (ha : a ∈ block) : a ∈ l := by
  rw [← flatten_blocks key l]
  exact List.mem_flatten.2 ⟨block, h, ha⟩

theorem key_eq_of_mem_blocks (h : block ∈ blocks key l) (ha : a ∈ block) (hb : b ∈ block) :
    key a = key b := by
  have hchain : block.IsChain fun x y => key x = key y :=
    (List.isChain_of_mem_splitBy h).imp fun x y hxy => (of_decide_eq_true hxy).symm
  have htrans : IsTrans α fun x y => key x = key y := ⟨fun _ _ _ => Eq.trans⟩
  have hsymm : Std.Symm fun x y => key x = key y := ⟨fun _ _ => Eq.symm⟩
  exact List.Pairwise.forall_of_forall (R := fun x y => key x = key y) (fun _ _ => rfl)
    hchain.pairwise ha hb

/-- The blocks of an image, where the keys are the same. -/
theorem blocks_map {β : Type*} {key' : β → κ} {f : α → β} (h : ∀ a, key' (f a) = key a)
    (l : List α) : blocks key' (l.map f) = (blocks key l).map (List.map f) := by
  refine List.splitBy_eq_iff.2 ⟨?_, ?_, ?_, ?_⟩
  · rw [← List.map_flatten, flatten_blocks]
  · intro hnil
    obtain ⟨block, hblock, heq⟩ := List.mem_map.1 hnil
    exact ne_nil_of_mem_blocks hblock (List.map_eq_nil_iff.1 heq)
  · intro block hblock
    obtain ⟨b, hb, rfl⟩ := List.mem_map.1 hblock
    rw [List.isChain_map]
    refine (List.isChain_of_mem_splitBy hb).imp fun x y hxy => ?_
    rwa [h, h]
  · rw [List.isChain_map]
    refine (List.isChain_getLast_head_splitBy _ l).imp fun x y => ?_
    rintro ⟨hx, hy, hne⟩
    refine ⟨by simpa using hx, by simpa using hy, ?_⟩
    rwa [List.getLast_map, List.head_map, h, h]

theorem blocks_append {l' : List α} (h : ∀ a ∈ l.getLast?, ∀ b ∈ l'.head?, key b ≠ key a) :
    blocks key (l ++ l') = blocks key l ++ blocks key l' :=
  List.splitBy_append fun a ha b hb => decide_eq_false (h a ha b hb)

/-- An entry between entries of other keys is a block. -/
theorem singleton_mem_blocks {front back : List α} (hfront : ∀ x ∈ front.getLast?, key a ≠ key x)
    (hback : ∀ y ∈ back.head?, key y ≠ key a) : [a] ∈ blocks key (front ++ a :: back) := by
  have hone : blocks key ([a] ++ back) = blocks key [a] ++ blocks key back :=
    blocks_append fun x hx y hy => by
      rw [← Option.some.inj hx]
      exact hback y hy
  have htwo : blocks key (front ++ ([a] ++ back)) = blocks key front ++ blocks key ([a] ++ back) :=
    blocks_append fun x hx y hy => by
      rw [← Option.some.inj hy]
      exact hfront x hx
  rw [show front ++ a :: back = front ++ ([a] ++ back) from rfl, htwo, hone]
  exact List.mem_append_right _ (List.mem_append_left _ List.mem_cons_self)

theorem blocks_of_forall (hne : l ≠ []) (h : ∀ a ∈ l, ∀ b ∈ l, key a = key b) :
    blocks key l = [l] := by
  refine List.splitBy_of_isChain hne (List.Pairwise.isChain ?_)
  refine List.pairwise_of_forall_mem_list fun a ha b hb => ?_
  simpa using h b hb a ha

theorem eq_map_of_length_one : ∀ bs : List (List α), (∀ b ∈ bs, b.length = 1) →
    bs = bs.flatten.map fun a => [a]
  | [], _ => rfl
  | b :: bs, h => by
    obtain ⟨hb, hbs⟩ := List.forall_mem_cons.1 h
    obtain ⟨a, rfl⟩ := List.length_eq_one_iff.1 hb
    conv_lhs => rw [eq_map_of_length_one bs hbs]
    rfl

/-- **Every entry is a block of its own** just where no neighbours have one
key. -/
theorem length_blocks_one_iff :
    (∀ block ∈ blocks key l, block.length = 1) ↔ l.IsChain fun a b => key a ≠ key b := by
  constructor
  · intro h
    have hsingle := eq_map_of_length_one _ h
    rw [flatten_blocks] at hsingle
    have hchain := List.isChain_getLast_head_splitBy (fun a b => decide (key b = key a)) l
    rw [show l.splitBy (fun a b => decide (key b = key a)) = l.map fun a => [a] from hsingle,
      List.isChain_map] at hchain
    refine hchain.imp fun a b => ?_
    rintro ⟨_, _, hne⟩
    exact fun heq => of_decide_eq_false hne heq.symm
  · intro h
    have hsingle : blocks key l = l.map fun a => [a] := by
      refine List.splitBy_eq_iff.2 ⟨?_, ?_, ?_, ?_⟩
      · rw [← List.flatMap_def, List.flatMap_singleton']
      · simp
      · intro block hblock
        obtain ⟨a, -, rfl⟩ := List.mem_map.1 hblock
        exact List.isChain_singleton a
      · rw [List.isChain_map]
        exact h.imp fun a b hne => ⟨nofun, nofun, decide_eq_false hne.symm⟩
    rw [hsingle]
    intro block hblock
    obtain ⟨a, -, rfl⟩ := List.mem_map.1 hblock
    rfl

theorem length_blocks_mul (h : ∀ block ∈ blocks key l, block.length = m) :
    (blocks key l).length * m = l.length := by
  conv_rhs => rw [← flatten_blocks key l]
  rw [List.length_flatten, List.map_congr_left h, List.map_const', List.sum_replicate_nat]

theorem eq_of_mem_blocks_of_length (h : block ∈ blocks key l) (hlen : block.length = l.length) :
    block = l := by
  obtain ⟨front, back, hblocks⟩ := List.append_of_mem h
  have hflat : l = front.flatten ++ (block ++ back.flatten) := by
    rw [← flatten_blocks key l, hblocks, List.flatten_append, List.flatten_cons]
  have hlength := congrArg List.length hflat
  simp only [List.length_append] at hlength
  have hfront : front.flatten = [] := List.length_eq_zero_iff.1 (by omega)
  have hback : back.flatten = [] := List.length_eq_zero_iff.1 (by omega)
  rw [hflat, hfront, hback, List.nil_append, List.append_nil]

/-- Lists of `m` entries that make up all the entries there are: there are
no others. -/
theorem length_of_filter_length : ∀ (bs : List (List α)), (∀ b ∈ bs, b ≠ []) →
    (bs.filter fun b => b.length = m).length * m ≤ bs.flatten.length ∧
      ((bs.filter fun b => b.length = m).length * m = bs.flatten.length →
        ∀ b ∈ bs, b.length = m)
  | [], _ => ⟨Nat.zero_mul m ▸ Nat.zero_le _, fun _ => nofun⟩
  | b :: bs, hne => by
    obtain ⟨hb, hbs⟩ := List.forall_mem_cons.1 hne
    have hpos := List.length_pos_iff.2 hb
    obtain ⟨hle, heq⟩ := length_of_filter_length bs hbs
    rw [List.filter_cons, List.flatten_cons, List.length_append]
    by_cases hlen : b.length = m
    · rw [if_pos (by simpa using hlen), List.length_cons, Nat.succ_mul, List.forall_mem_cons]
      exact ⟨by omega, fun h => ⟨hlen, heq (by omega)⟩⟩
    · rw [if_neg (by simpa using hlen)]
      exact ⟨by omega, fun h => by omega⟩

/-- A list is made of its blocks of two lengths and the others. -/
theorem exists_perm_blocks {k : ℕ} (hne : m ≠ k) (key : α → κ) (l : List α) : ∃ rest, l.Perm
    (((blocks key l).filter fun block => block.length = m).flatten ++
      (((blocks key l).filter fun block => block.length = k).flatten ++ rest)) := by
  have hrow : ((blocks key l).filter fun b => ! decide (b.length = m)).filter
      (fun b => decide (b.length = k)) = (blocks key l).filter fun b => b.length = k := by
    rw [List.filter_filter]
    refine List.filter_congr fun b _ => ?_
    by_cases hb : b.length = k
    · simp [hb, hne.symm]
    · simp [hb]
  have hfirst := List.filter_append_perm (fun b => decide (b.length = m)) (blocks key l)
  have hsecond := List.filter_append_perm (fun b => decide (b.length = k))
    ((blocks key l).filter fun b => ! decide (b.length = m))
  rw [hrow] at hsecond
  have hperm := ((hsecond.append_left _).trans hfirst).flatten
  rw [flatten_blocks, List.flatten_append, List.flatten_append] at hperm
  exact ⟨_, hperm.symm⟩

omit [DecidableEq κ] in
/-- The keys of blocks of one length are the keys of their first entries,
each as many times. -/
theorem map_flatten_of_length (hm : 0 < m) (d : α) : ∀ (bs : List (List α)),
    (∀ b ∈ bs, b.length = m) → (∀ b ∈ bs, ∀ x ∈ b, ∀ y ∈ b, key x = key y) →
    bs.flatten.map key = (bs.map fun b => key (b.headD d)).flatMap (List.replicate m)
  | [], _, _ => rfl
  | b :: bs, hlen, hkey => by
    obtain ⟨hb, hbs⟩ := List.forall_mem_cons.1 hlen
    obtain ⟨hkeyb, hkeys⟩ := List.forall_mem_cons.1 hkey
    obtain ⟨x, rest, rfl⟩ := List.exists_cons_of_length_pos (hb ▸ hm)
    have hreplicate : (x :: rest).map key = List.replicate m (key x) := by
      refine List.eq_replicate_iff.2 ⟨by rw [List.length_map, hb], fun v hv => ?_⟩
      obtain ⟨y, hy, rfl⟩ := List.mem_map.1 hv
      exact hkeyb y hy x List.mem_cons_self
    rw [List.flatten_cons, List.map_append, map_flatten_of_length hm d bs hbs hkeys, hreplicate,
      List.map_cons, List.flatMap_cons]
    rfl

theorem getD_flatten_of_length (hm : 0 < m) (d : α) : ∀ (bs : List (List α)) (i : ℕ),
    (∀ b ∈ bs, b.length = m) → i < bs.length →
    bs.flatten.getD (i * m) d = (bs.getD i []).headD d
  | [], _, _, hi => absurd hi (Nat.not_lt_zero _)
  | b :: bs, 0, hlen, _ => by
    obtain ⟨x, rest, rfl⟩ := List.exists_cons_of_length_pos ((hlen b List.mem_cons_self) ▸ hm)
    rw [Nat.zero_mul]
    rfl
  | b :: bs, i + 1, hlen, hi => by
    obtain ⟨hb, hbs⟩ := List.forall_mem_cons.1 hlen
    rw [List.flatten_cons, Nat.succ_mul, List.getD_append_right _ _ _ _ (by omega), hb,
      Nat.add_sub_cancel, getD_flatten_of_length hm d bs i hbs (Nat.lt_of_succ_lt_succ hi)]
    rfl

/-- A block of three entries and more has three neighbours of one key. -/
theorem exists_three_of_mem_blocks (d : α) (h : block ∈ blocks key l) (hlen : 3 ≤ block.length) :
    ∃ i, i + 2 < l.length ∧ key (l.getD i d) = key (l.getD (i + 1) d) ∧
      key (l.getD i d) = key (l.getD (i + 2) d) := by
  obtain ⟨front, back, hblocks⟩ := List.append_of_mem h
  match block, h, hblocks, hlen with
  | x :: y :: z :: rest, h, hblocks, _ =>
    have hl : l = front.flatten ++ x :: y :: z :: (rest ++ back.flatten) := by
      rw [← flatten_blocks key l, hblocks, List.flatten_append, List.flatten_cons]
      rfl
    have hget : ∀ j, l.getD (front.flatten.length + j) d =
        (x :: y :: z :: (rest ++ back.flatten)).getD j d := fun j => by
      conv_lhs => rw [hl]
      rw [List.getD_append_right _ _ _ _ (Nat.le_add_right _ _), Nat.add_sub_cancel_left]
    refine ⟨front.flatten.length, ?_, ?_, ?_⟩
    · rw [hl, List.length_append]
      simp only [List.length_cons]
      omega
    · rw [hget 1, ← Nat.add_zero front.flatten.length, hget 0]
      exact key_eq_of_mem_blocks h (by simp) (by simp)
    · rw [hget 2, ← Nat.add_zero front.flatten.length, hget 0]
      exact key_eq_of_mem_blocks h (by simp) (by simp)

/-- The entries of some keys, key by key. -/
theorem perm_flatMap_filter (key : α → κ) (l : List α) : ∀ {ks : List κ}, ks.Nodup →
    (ks.flatMap fun k => l.filter fun a => key a = k).Perm (l.filter fun a => key a ∈ ks)
  | [], _ => by simp
  | k :: ks, hks => by
    obtain ⟨hk, hrest⟩ := List.nodup_cons.1 hks
    have hfirst : (l.filter fun a => key a ∈ k :: ks).filter (fun a => key a = k) =
        l.filter fun a => key a = k := by
      rw [List.filter_filter]
      refine List.filter_congr fun a _ => ?_
      by_cases ha : key a = k <;> simp [ha]
    have hothers : (l.filter fun a => key a ∈ k :: ks).filter (fun a => ! decide (key a = k)) =
        l.filter fun a => key a ∈ ks := by
      rw [List.filter_filter]
      refine List.filter_congr fun a _ => ?_
      by_cases ha : key a = k
      · simp [ha, hk]
      · simp [ha]
    have hsplit := List.filter_append_perm (fun a => decide (key a = k))
      (l.filter fun a => key a ∈ k :: ks)
    rw [hfirst, hothers] at hsplit
    rw [List.flatMap_cons]
    exact ((perm_flatMap_filter key l hrest).append_left _).trans hsplit

theorem exists_perm_map {β : Type*} {f : α → β} {l : List α} {image : List β}
    (h : (l.map f).Perm image) : ∃ l' : List α, l'.Perm l ∧ l'.map f = image := by
  generalize hl : l.map f = values at h
  induction h generalizing l with
  | nil => exact ⟨l, .refl _, hl⟩
  | cons v _ ih =>
    obtain ⟨a, rest, rfl, rfl, hrest⟩ := List.map_eq_cons_iff.1 hl
    obtain ⟨order, hperm, rfl⟩ := ih hrest
    exact ⟨a :: order, hperm.cons a, rfl⟩
  | swap u v values =>
    obtain ⟨a, rest, rfl, rfl, hrest⟩ := List.map_eq_cons_iff.1 hl
    obtain ⟨b, rest, rfl, rfl, rfl⟩ := List.map_eq_cons_iff.1 hrest
    exact ⟨b :: a :: rest, .swap a b rest, rfl⟩
  | trans _ _ ih ih' =>
    obtain ⟨order, hperm, himage⟩ := ih hl
    obtain ⟨order', hperm', rfl⟩ := ih' himage
    exact ⟨order', hperm'.trans hperm, rfl⟩

section Sorted

variable {κ : Type*} [LinearOrder κ] {key : α → κ} {l : List α} {block : List α} {a : α}

/-- Neighbouring blocks of a list sorted downwards go strictly down, and so
do any two. -/
theorem pairwise_of_isChain : ∀ (bs : List (List α)),
    (bs.IsChain fun x y => ∃ hx hy, key (y.head hy) ≠ key (x.getLast hx)) →
    (∀ x ∈ bs, ∀ a ∈ x, ∀ b ∈ x, key a = key b) →
    bs.Pairwise (fun x y => ∀ a ∈ x, ∀ b ∈ y, key b ≤ key a) →
    bs.Pairwise fun x y => ∀ a ∈ x, ∀ b ∈ y, key b < key a
  | [], _, _, _ => .nil
  | [_], _, _, _ => List.pairwise_singleton _ _
  | x :: y :: bs, hchain, hkey, hle => by
    obtain ⟨⟨hx, hy, hne⟩, hrest⟩ := List.isChain_cons_cons.1 hchain
    obtain ⟨hfront, hback⟩ := List.pairwise_cons.1 hle
    have hlast := List.getLast_mem hx
    have hhead := List.head_mem hy
    refine List.pairwise_cons.2 ⟨fun z hz a ha b hb => ?_, pairwise_of_isChain (y :: bs) hrest
      (fun z hz => hkey z (List.mem_cons_of_mem _ hz)) hback⟩
    -- the next block is below, and the ones behind it are not above it
    have hnext : key (y.head hy) < key a := by
      rw [hkey x List.mem_cons_self a ha _ hlast]
      exact lt_of_le_of_ne (hfront y List.mem_cons_self _ hlast _ hhead) hne
    rcases List.mem_cons.1 hz with rfl | hz
    · rwa [hkey z (by simp) b hb _ hhead]
    · exact ((List.pairwise_cons.1 hback).1 z hz _ hhead b hb).trans_lt hnext

theorem pairwise_blocks (hs : l.Pairwise fun a b => key b ≤ key a) :
    (blocks key l).Pairwise fun x y => ∀ a ∈ x, ∀ b ∈ y, key b < key a := by
  refine pairwise_of_isChain _ ?_ (fun x hx a ha b hb => key_eq_of_mem_blocks hx ha hb) ?_
  · refine (List.isChain_getLast_head_splitBy _ l).imp fun x y => ?_
    rintro ⟨hx, hy, h⟩
    exact ⟨hx, hy, of_decide_eq_false h⟩
  · rw [← flatten_blocks key l, List.pairwise_flatten] at hs
    exact hs.2

/-- **A block of a sorted list has all entries of its key.** -/
theorem filter_eq_of_mem_blocks (hs : l.Pairwise fun a b => key b ≤ key a)
    (h : block ∈ blocks key l) (ha : a ∈ block) : (l.filter fun b => key b = key a) = block := by
  have hpair := pairwise_blocks hs
  have hkey : ∀ b ∈ block, key b = key a := fun b hb => key_eq_of_mem_blocks h hb ha
  obtain ⟨front, back, hblocks⟩ := List.append_of_mem h
  rw [hblocks, List.pairwise_append, List.pairwise_cons] at hpair
  obtain ⟨-, ⟨hback, -⟩, hfront⟩ := hpair
  have hsplit : l = front.flatten ++ (block ++ back.flatten) := by
    rw [← flatten_blocks key l, hblocks, List.flatten_append, List.flatten_cons]
  rw [hsplit, List.filter_append, List.filter_append, List.filter_eq_nil_iff.2, List.filter_eq_self.2,
    List.filter_eq_nil_iff.2, List.append_nil, List.nil_append]
  · intro b hb
    obtain ⟨x, hx, hbx⟩ := List.mem_flatten.1 hb
    simpa using (hback x hx a ha b hbx).ne
  · simpa using hkey
  · intro b hb
    obtain ⟨x, hx, hbx⟩ := List.mem_flatten.1 hb
    simpa using (hfront x hx block List.mem_cons_self b hbx a ha).ne'

end Sorted

end GameServer
