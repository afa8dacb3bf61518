import Mathlib.Data.Finset.Card
/-!
# Linked nodes

Nodes are known by their addresses, and a link is a function from
addresses to addresses. `Leads link xs last` says that the links go
through `xs` and from its last node to `last`. A list that is linked both
ways is a `Leads` of each link, the second one along the reversed list,
so that putting a node in and taking one out are each one rule, used
twice: `Leads.insert` and `Leads.bypass`.
-/

namespace GameServer

open Function

variable {ν : Type*}

/-- The links lead through `xs`, and from its last node to `last`. -/
def Leads (link : ν → Option ν) : List ν → Option ν → Prop
  | [], _ => True
  | a :: xs, last => link a = xs.head?.or last ∧ Leads link xs last

variable {link link' : ν → Option ν} {xs ys : List ν} {last last' : Option ν} {a b : ν}

theorem leads_append : Leads link (xs ++ ys) last ↔
    Leads link xs (ys.head?.or last) ∧ Leads link ys last := by
  induction xs with
  | nil => simp [Leads]
  | cons a xs ih =>
    simp only [List.cons_append, Leads, ih, List.head?_append, Option.or_assoc, and_assoc]

theorem Leads.congr (h : Leads link xs last) (heq : ∀ a ∈ xs, link' a = link a) :
    Leads link' xs last := by
  induction xs with
  | nil => trivial
  | cons a xs ih =>
    exact ⟨(heq a List.mem_cons_self).trans h.1,
      ih h.2 fun b hb => heq b (List.mem_cons_of_mem _ hb)⟩

theorem Leads.link_eq (h : Leads link (xs ++ a :: ys) none) : link a = ys.head? := by
  have := (leads_append.1 h).2.1
  rwa [Option.or_none] at this

theorem Leads.head_eq (h : Leads link (a :: xs) none) : link a = xs.head? := by
  have := h.1
  rwa [Option.or_none] at this

/-- Where two nodes follow each other, the link leads from one to the
other. -/
theorem Leads.link_eq_some (h : Leads link (xs ++ a :: b :: ys) last) : link a = some b :=
  (leads_append.1 h).2.1

/-- The list a link leads through from a node, if it ends, is the only
one. -/
theorem Leads.unique : ∀ {xs ys : List ν}, xs.head? = ys.head? → Leads link xs none →
    Leads link ys none → xs = ys
  | [], [], _, _, _ => rfl
  | [], _ :: _, h, _, _ => by cases h
  | _ :: _, [], h, _, _ => by cases h
  | a :: xs, b :: ys, h, hx, hy => by
    obtain rfl : a = b := Option.some.inj h
    have hhead : xs.head? = ys.head? := hx.head_eq.symm.trans hy.head_eq
    rw [hx.2.unique hhead hy.2]

/-- A list that ends goes through no node twice. -/
theorem Leads.nodup (h : Leads link xs none) : xs.Nodup := by
  induction xs with
  | nil => exact List.nodup_nil
  | cons a xs ih =>
    refine List.nodup_cons.2 ⟨fun hmem => ?_, ih h.2⟩
    obtain ⟨ys, zs, hxs⟩ := List.append_of_mem hmem
    -- from the second place of the node the same list goes on, and is shorter
    have htail : Leads link (a :: zs) none := by
      have := h.2
      rw [hxs] at this
      exact (leads_append.1 this).2
    have hhead : (a :: xs).head? = (a :: zs).head? := rfl
    have heq := congrArg List.length (Leads.unique hhead h htail)
    rw [hxs] at heq
    simp only [List.length_cons, List.length_append] at heq
    omega

section Update

variable [DecidableEq ν]

/-- A link set at a node, if there is the node. -/
def redirect (link : ν → Option ν) (p : Option ν) (target : Option ν) : ν → Option ν :=
  match p with
  | none => link
  | some p => update link p target

theorem redirect_of_notMem {p target : Option ν} (h : ∀ q ∈ p, q ∉ xs) :
    ∀ a ∈ xs, redirect link p target a = link a := by
  intro a ha
  cases p with
  | none => rfl
  | some q => exact update_of_ne (ne_of_mem_of_not_mem ha (h q rfl)) ..

theorem Leads.redirect_last (h : Leads link xs last) (hnodup : xs.Nodup) :
    Leads (redirect link xs.getLast? last') xs last' := by
  rcases List.eq_nil_or_concat xs with rfl | ⟨ys, p, rfl⟩
  · trivial
  · rw [List.concat_eq_append] at h hnodup ⊢
    have hp : p ∉ ys := fun hmem =>
      List.disjoint_of_nodup_append hnodup hmem (List.mem_singleton_self p)
    rw [List.getLast?_concat]
    refine leads_append.2 ⟨(leads_append.1 h).1.congr ?_, ?_, trivial⟩
    · exact fun a ha => update_of_ne (ne_of_mem_of_not_mem ha hp) ..
    · exact update_self ..

/-- **A node is put in** between two parts of a list. -/
theorem Leads.insert (h : Leads link (xs ++ ys) last) (hnodup : (xs ++ ys).Nodup)
    (hb : b ∉ xs ++ ys) :
    Leads (redirect (update link b (ys.head?.or last)) xs.getLast? (some b))
      (xs ++ b :: ys) last := by
  have hx : b ∉ xs := fun hmem => hb (List.mem_append_left _ hmem)
  have hy : b ∉ ys := fun hmem => hb (List.mem_append_right _ hmem)
  have hdisj := List.disjoint_of_nodup_append hnodup
  have hrest : ∀ zs : List ν, (∀ q ∈ xs, q ∉ zs) → ∀ q ∈ xs.getLast?, q ∉ zs :=
    fun zs hzs q hq => hzs q (List.mem_of_getLast? hq)
  refine leads_append.2 ⟨?_, ?_, ?_⟩
  · have hfirst : Leads (update link b (ys.head?.or last)) xs (ys.head?.or last) :=
      (leads_append.1 h).1.congr fun a ha => update_of_ne (ne_of_mem_of_not_mem ha hx) ..
    exact hfirst.redirect_last (List.nodup_append.1 hnodup).1
  · rw [redirect_of_notMem (hrest [b] fun q hq hmem =>
      hx (List.mem_singleton.1 hmem ▸ hq)) b (List.mem_singleton_self b), update_self]
  · refine (leads_append.1 h).2.congr fun a ha => ?_
    rw [redirect_of_notMem (hrest ys fun q hq hmem => hdisj hq hmem) a ha]
    exact update_of_ne (ne_of_mem_of_not_mem ha hy) ..

/-- **A node is taken out**: the one before it leads where it led. -/
theorem Leads.bypass (h : Leads link (xs ++ a :: ys) last) (hnodup : (xs ++ a :: ys).Nodup) :
    Leads (redirect link xs.getLast? (link a)) (xs ++ ys) last := by
  have hdisj := List.disjoint_of_nodup_append hnodup
  have hlink : link a = ys.head?.or last := (leads_append.1 h).2.1
  refine leads_append.2 ⟨?_, ?_⟩
  · rw [hlink]
    exact (leads_append.1 h).1.redirect_last (List.nodup_append.1 hnodup).1
  · refine (leads_append.1 h).2.2.congr (redirect_of_notMem fun q hq hmem => ?_)
    exact hdisj (List.mem_of_getLast? hq) (List.mem_cons_of_mem _ hmem)

end Update

/-! ## Going through the nodes -/

/-- The nodes found from one on, at most `n` of them. -/
def follow (link : ν → Option ν) : ℕ → Option ν → List ν
  | 0, _ => []
  | _, none => []
  | n + 1, some a => a :: follow link n (link a)

theorem Leads.follow_eq : ∀ {xs : List ν} {n : ℕ}, Leads link xs none → xs.length ≤ n →
    follow link n xs.head? = xs
  | [], 0, _, _ => rfl
  | [], _ + 1, _, _ => rfl
  | _ :: _, 0, _, hn => absurd hn (Nat.not_succ_le_zero _)
  | a :: xs, n + 1, h, hn => by
    rw [List.head?_cons, follow, h.head_eq, h.2.follow_eq (Nat.le_of_succ_le_succ hn)]

/-- A list of distinct addresses below a bound is no longer than it. -/
theorem length_le_of_lt {xs : List ℕ} {n : ℕ} (h : xs.Nodup) (hlt : ∀ a ∈ xs, a < n) :
    xs.length ≤ n := by
  have hsub : xs.Subperm (List.range n) := List.subperm_of_subset h
    fun a ha => List.mem_range.2 (hlt a ha)
  simpa using hsub.length_le

end GameServer
