import GameServer.ServiceUnits.Model.DBCorrespondManager
import Mathlib.Data.List.Range
import Mathlib.Data.Finset.Card
/-!
# ServiceUnits — requests of one user, one at a time and in order

What happens to the requests is a log of notices. A log is *lawful* when
every entry of it was allowed by the ones before: a request is handed over
only as the first of its user in the list, with no other of that user at
the engine, and leaves the list only right after its own completion. The
scheduler writes lawful logs only (`inv_run`), and what the log then says
of one user's requests is a fact about lawful logs. Over infinite runs a
request waits for the earlier ones of its user: it is handed over unless
one of those is kept for retry and fails for ever.
-/

namespace GameServer.ServiceUnits

variable {log l₁ l₂ notices : List Notice} {q r : DBRequest} {m : DBCorrespondManager}
  {outstanding : List DBRequest} {ok : Bool} {s s' : Scheduler} {n : ℕ} {e : Notice}

/-! ## Lawful logs -/

/-- What a log leaves behind: the requests in the list, in order, and
those at the engine. -/
structure Book where
  pending : List DBRequest := []
  flying : List DBRequest := []

namespace Book

def note (b : Book) : Notice → Book
  | .posted r => { b with pending := b.pending ++ [r] }
  | .handed r => { b with flying := b.flying ++ [r] }
  | .completed r _ => { b with flying := b.flying.erase r }
  | .removed r => { b with pending := b.pending.erase r }

/-- The book after a log. -/
def of (log : List Notice) : Book := log.foldl note {}

@[simp] theorem of_nil : of [] = {} := rfl

@[simp] theorem of_append_singleton (log : List Notice) (e : Notice) :
    of (log ++ [e]) = (of log).note e := by
  simp [of]

end Book

/-- The request is through: it was completed, and if it is to be retried
the completion was a success. -/
def Settled (r : DBRequest) (log : List Notice) : Prop :=
  ∃ ok, Notice.completed r ok ∈ log ∧ (r.cache ≠ 0 → ok = true)

/-- The notice `e` may come after `log`. -/
def Allowed (log : List Notice) : Notice → Prop
  | .posted r => ∀ q, Notice.posted q ∈ log → q.address < r.address
  | .handed r =>
      r ∈ (Book.of log).pending ∧
        (∀ q ∈ (Book.of log).pending, q.userID = r.userID → r.address ≤ q.address) ∧
        ∀ q ∈ (Book.of log).flying, q.userID ≠ r.userID
  | .completed r _ => r ∈ (Book.of log).flying
  | .removed r =>
      r ∈ (Book.of log).pending ∧
        ∃ ok, log.getLast? = some (.completed r ok) ∧ (r.cache ≠ 0 → ok = true)

/-- Every notice was allowed by the ones before it. -/
def Lawful (log : List Notice) : Prop :=
  ∀ l₁ e l₂, log = l₁ ++ e :: l₂ → Allowed l₁ e

theorem lawful_nil : Lawful [] := by
  intro l₁ e l₂ h
  simp at h

theorem Lawful.of_append (h : Lawful (l₁ ++ l₂)) : Lawful l₁ := by
  intro a e b hab
  exact h a e (b ++ l₂) (by rw [hab]; simp)

theorem lawful_append_singleton :
    Lawful (log ++ [e]) ↔ Lawful log ∧ Allowed log e := by
  refine ⟨fun h => ⟨h.of_append, h log e [] rfl⟩, fun ⟨h, he⟩ l₁ a l₂ heq => ?_⟩
  rcases List.eq_nil_or_concat l₂ with rfl | ⟨l, b, rfl⟩
  · obtain ⟨rfl, hlast⟩ := List.append_inj' heq rfl
    cases hlast
    exact he
  · rw [List.concat_eq_append, ← List.cons_append, ← List.append_assoc] at heq
    obtain ⟨hinit, -⟩ := List.append_inj' heq rfl
    exact h l₁ a l hinit

theorem Lawful.rec_last {P : List Notice → Prop} (hnil : P [])
    (hlast : ∀ log e, Lawful log → Allowed log e → P log → P (log ++ [e])) :
    ∀ {log}, Lawful log → P log := by
  intro log
  induction log using List.reverseRecOn with
  | nil => exact fun _ => hnil
  | append_singleton log e ih =>
    intro h
    obtain ⟨hlog, he⟩ := lawful_append_singleton.1 h
    exact hlast log e hlog he (ih hlog)

/-- What a lawful log leaves behind. -/
structure Kept (log : List Notice) : Prop where
  sorted : (Book.of log).pending.Pairwise (·.address < ·.address)
  posted : ∀ r ∈ (Book.of log).pending, Notice.posted r ∈ log
  removed : ∀ r, Notice.posted r ∈ log →
    (r ∈ (Book.of log).pending ↔ Notice.removed r ∉ log)
  users : ((Book.of log).flying.map (·.userID)).Nodup
  handed : ∀ r ∈ (Book.of log).flying, Notice.handed r ∈ log
  settled : ∀ r, Notice.removed r ∈ log → Settled r log ∧ Notice.posted r ∈ log
  known : ∀ r, Notice.handed r ∈ log → Notice.posted r ∈ log
  tried : ∀ r ok, Notice.completed r ok ∈ log → Notice.handed r ∈ log

theorem Settled.append {l : List Notice} (h : Settled r log) :
    Settled r (log ++ l) := by
  obtain ⟨ok, hmem, hok⟩ := h
  exact ⟨ok, List.mem_append_left _ hmem, hok⟩

/-- The entry comes, and what was kept is kept. -/
theorem Kept.append_singleton (h : Kept log) (he : Allowed log e) : Kept (log ++ [e]) := by
  have hnodup : (Book.of log).pending.Nodup :=
    h.sorted.imp fun hlt heq => by rw [heq] at hlt; omega
  cases e with
  | posted r =>
    have hnew : ∀ q, Notice.posted q ∈ log → q.address < r.address := he
    have hrlog : Notice.posted r ∉ log := fun hr => by have := hnew r hr; omega
    constructor
    · simp only [Book.of_append_singleton, Book.note, List.pairwise_append]
      refine ⟨h.sorted, List.pairwise_singleton _ _, fun q hq p hp => ?_⟩
      rw [List.mem_singleton.1 hp]
      exact hnew q (h.posted q hq)
    · simp only [Book.of_append_singleton, Book.note, List.mem_append, List.mem_singleton]
      rintro q (hq | rfl)
      · exact Or.inl (h.posted q hq)
      · exact Or.inr rfl
    · intro q hq
      simp only [Book.of_append_singleton, Book.note, List.mem_append, List.mem_singleton,
        reduceCtorEq, or_false]
      by_cases hqr : q = r
      · subst hqr
        refine ⟨fun _ hrem => hrlog (h.settled q hrem).2, fun _ => Or.inr rfl⟩
      · have hq' : Notice.posted q ∈ log := by simpa [hqr] using hq
        simpa [hqr] using h.removed q hq'
    · simpa [Book.note] using h.users
    · simp only [Book.of_append_singleton, Book.note]
      exact fun q hq => List.mem_append_left _ (h.handed q hq)
    · intro q hq
      have hq' : Notice.removed q ∈ log := by simpa using hq
      exact ⟨(h.settled q hq').1.append, List.mem_append_left _ (h.settled q hq').2⟩
    · intro q hq
      have hq' : Notice.handed q ∈ log := by simpa using hq
      exact List.mem_append_left _ (h.known q hq')
    · intro q ok hq
      have hq' : Notice.completed q ok ∈ log := by simpa using hq
      exact List.mem_append_left _ (h.tried q ok hq')
  | handed r =>
    obtain ⟨hr, -, hfree⟩ := he
    constructor
    · simpa [Book.note] using h.sorted
    · simp only [Book.of_append_singleton, Book.note]
      exact fun q hq => List.mem_append_left _ (h.posted q hq)
    · intro q hq
      have hq' : Notice.posted q ∈ log := by simpa using hq
      simpa [Book.note] using h.removed q hq'
    · simp only [Book.of_append_singleton, Book.note, List.map_append, List.map_cons, List.map_nil]
      refine List.nodup_append.2 ⟨h.users, List.nodup_singleton _, ?_⟩
      intro u hu v hv
      obtain ⟨q, hq, rfl⟩ := List.mem_map.1 hu
      rw [List.mem_singleton.1 hv]
      exact hfree q hq
    · simp only [Book.of_append_singleton, Book.note, List.mem_append, List.mem_singleton]
      rintro q (hq | rfl)
      · exact Or.inl (h.handed q hq)
      · exact Or.inr rfl
    · intro q hq
      have hq' : Notice.removed q ∈ log := by simpa using hq
      exact ⟨(h.settled q hq').1.append, List.mem_append_left _ (h.settled q hq').2⟩
    · intro q hq
      simp only [List.mem_append, List.mem_singleton, Notice.handed.injEq] at hq
      rcases hq with hq | rfl
      · exact List.mem_append_left _ (h.known q hq)
      · exact List.mem_append_left _ (h.posted q hr)
    · intro q ok hq
      have hq' : Notice.completed q ok ∈ log := by simpa using hq
      exact List.mem_append_left _ (h.tried q ok hq')
  | completed r ok =>
    have hr : r ∈ (Book.of log).flying := he
    constructor
    · simpa [Book.note] using h.sorted
    · simp only [Book.of_append_singleton, Book.note]
      exact fun q hq => List.mem_append_left _ (h.posted q hq)
    · intro q hq
      have hq' : Notice.posted q ∈ log := by simpa using hq
      simpa [Book.note] using h.removed q hq'
    · simp only [Book.of_append_singleton, Book.note]
      exact h.users.sublist (List.erase_sublist.map _)
    · simp only [Book.of_append_singleton, Book.note]
      exact fun q hq => List.mem_append_left _ (h.handed q (List.mem_of_mem_erase hq))
    · intro q hq
      have hq' : Notice.removed q ∈ log := by simpa using hq
      exact ⟨(h.settled q hq').1.append, List.mem_append_left _ (h.settled q hq').2⟩
    · intro q hq
      have hq' : Notice.handed q ∈ log := by simpa using hq
      exact List.mem_append_left _ (h.known q hq')
    · intro q ok' hq
      simp only [List.mem_append, List.mem_singleton, Notice.completed.injEq] at hq
      rcases hq with hq | ⟨rfl, rfl⟩
      · exact List.mem_append_left _ (h.tried q ok' hq)
      · exact List.mem_append_left _ (h.handed q hr)
  | removed r =>
    obtain ⟨hr, ok, hlast, hok⟩ := he
    constructor
    · simp only [Book.of_append_singleton, Book.note]
      exact h.sorted.sublist List.erase_sublist
    · simp only [Book.of_append_singleton, Book.note]
      exact fun q hq => List.mem_append_left _ (h.posted q (List.mem_of_mem_erase hq))
    · intro q hq
      have hq' : Notice.posted q ∈ log := by simpa using hq
      have := h.removed q hq'
      simp only [Book.of_append_singleton, Book.note, hnodup.mem_erase_iff, List.mem_append,
        List.mem_singleton, Notice.removed.injEq]
      grind
    · simpa [Book.note] using h.users
    · simp only [Book.of_append_singleton, Book.note]
      exact fun q hq => List.mem_append_left _ (h.handed q hq)
    · intro q hq
      simp only [List.mem_append, List.mem_singleton, Notice.removed.injEq] at hq
      rcases hq with hq | rfl
      · exact ⟨(h.settled q hq).1.append, List.mem_append_left _ (h.settled q hq).2⟩
      · exact ⟨⟨ok, List.mem_append_left _ (List.mem_of_getLast? hlast), hok⟩,
          List.mem_append_left _ (h.posted q hr)⟩
    · intro q hq
      have hq' : Notice.handed q ∈ log := by simpa using hq
      exact List.mem_append_left _ (h.known q hq')
    · intro q ok' hq
      have hq' : Notice.completed q ok' ∈ log := by simpa using hq
      exact List.mem_append_left _ (h.tried q ok' hq')

theorem Lawful.kept (h : Lawful log) : Kept log := by
  refine Lawful.rec_last ?_ (fun log e _ he ih => ih.append_singleton he) h
  constructor <;> simp

theorem Lawful.address_lt (h : Lawful (l₁ ++ l₂))
    (hq : Notice.posted q ∈ l₁) (hr : Notice.posted r ∈ l₂) : q.address < r.address := by
  obtain ⟨a, b, rfl⟩ := List.append_of_mem hr
  have hallowed : Allowed (l₁ ++ a) (.posted r) := h (l₁ ++ a) _ b (by simp)
  exact hallowed q (List.mem_append_left _ hq)

/-- **One at a time.** No user has two requests at the engine. -/
theorem Lawful.flying_le_one (h : Lawful log) (u : UInt32) :
    ((Book.of log).flying.filter (·.userID = u)).length ≤ 1 := by
  have hnodup : (((Book.of log).flying.filter (·.userID = u)).map (·.userID)).Nodup :=
    h.kept.users.sublist (List.filter_sublist.map _)
  have hall : ∀ v ∈ ((Book.of log).flying.filter (·.userID = u)).map (·.userID), v = u := by
    intro v hv
    obtain ⟨r, hr, rfl⟩ := List.mem_map.1 hv
    simpa using (List.mem_filter.1 hr).2
  rw [List.eq_replicate_of_mem hall, List.length_map] at hnodup
  exact List.nodup_replicate.1 hnodup

/-- **In order.** When a request is handed over, the earlier ones of its
user are through, and none of them is handed over again. -/
theorem Lawful.order {a b : List Notice} (h : Lawful log)
    (huser : q.userID = r.userID) (hpost : log = a ++ .posted r :: b) (hq : Notice.posted q ∈ a)
    (hhand : log = l₁ ++ .handed r :: l₂) : Settled q l₁ ∧ Notice.handed q ∉ l₂ := by
  have hlt : q.address < r.address := h a _ b hpost q hq
  have hl₁ : Lawful l₁ := by
    rw [hhand] at h
    exact h.of_append
  obtain ⟨hr, hfirst, -⟩ : Allowed l₁ (.handed r) := h l₁ _ l₂ hhand
  have hrl₁ := hl₁.kept.posted r hr
  -- a request posted after `r` would have a larger address
  have hql₁ : Notice.posted q ∈ l₁ := by
    by_contra hnot
    have hmem : Notice.posted q ∈ l₁ ++ .handed r :: l₂ := by
      rw [← hhand, hpost]
      exact List.mem_append_left _ hq
    have hl₂ : Notice.posted q ∈ Notice.handed r :: l₂ := (List.mem_append.1 hmem).resolve_left hnot
    rw [hhand] at h
    have := h.address_lt hrl₁ hl₂
    omega
  have hgone : q ∉ (Book.of l₁).pending := fun hmem => by
    have := hfirst q hmem huser
    omega
  have hrem : Notice.removed q ∈ l₁ := by
    by_contra hnot
    exact hgone ((hl₁.kept.removed q hql₁).2 hnot)
  refine ⟨(hl₁.kept.settled q hrem).1, fun hagain => ?_⟩
  obtain ⟨c, d, rfl⟩ := List.append_of_mem hagain
  have hlong : log = (l₁ ++ .handed r :: c) ++ .handed q :: d := by rw [hhand]; simp
  have hkept : Kept (l₁ ++ .handed r :: c) := by
    rw [hlong] at h
    exact h.of_append.kept
  obtain ⟨hpend, -, -⟩ : Allowed (l₁ ++ .handed r :: c) (.handed q) := h _ _ d hlong
  exact (hkept.removed q (hkept.posted q hpend)).1 hpend (List.mem_append_left _ hrem)

/-- **Out of the list only when through.** -/
theorem Lawful.settled_of_removed (h : Lawful log)
    (hrem : log = l₁ ++ .removed r :: l₂) : Settled r l₁ := by
  obtain ⟨-, ok, hlast, hok⟩ : Allowed l₁ (.removed r) := h l₁ _ l₂ hrem
  exact ⟨ok, List.mem_of_getLast? hlast, hok⟩

/-! ## The manager writes lawful logs -/

namespace DBCorrespondManager

theorem isPostDBRequest_iff {array : List UInt32} {u : UInt32} :
    isPostDBRequest array u = true ↔ u ∈ array := by
  simp [isPostDBRequest]

theorem clearUser_eq_erase (array : List UInt32) (u : UInt32) :
    clearUser array u = array.erase u := by
  induction array with
  | nil => rfl
  | cons a array ih =>
    by_cases ha : u = a
    · subst ha
      simp [clearUser, getUserArrayIndex, List.findIdx?_cons]
    · rw [List.erase_cons_tail (by simpa using Ne.symm ha), ← ih]
      have hne : (u == a) = false := by simpa using ha
      simp only [clearUser, getUserArrayIndex, List.findIdx?_cons, hne]
      cases List.findIdx? (fun x => u == x) array <;> rfl

theorem clearRequest_first (ok : Bool) : ∀ {list : List DBRequest}, r ∈ list →
    list.Pairwise (·.address < ·.address) →
    (∀ q ∈ list, q.userID = r.userID → r.address ≤ q.address) →
    clearRequest r.userID ok list =
      if r.cache = 0 ∨ ok then (list.erase r, [.removed r]) else (list, []) := by
  intro list
  induction list with
  | nil => intro h; simp at h
  | cons p list ih =>
    intro hr hsorted hfirst
    obtain ⟨hp, hsorted⟩ := List.pairwise_cons.1 hsorted
    by_cases hpr : p = r
    · subst hpr
      simp [clearRequest]
    · have hr : r ∈ list := (List.mem_cons.1 hr).resolve_left (Ne.symm hpr)
      have huser : p.userID ≠ r.userID := fun h => by
        have := hfirst p List.mem_cons_self h
        have := hp r hr
        omega
      have := ih hr hsorted fun q hq => hfirst q (List.mem_cons_of_mem _ hq)
      rw [clearRequest, if_neg huser, this, List.erase_cons_tail (by simpa using hpr)]
      by_cases hgo : r.cache = 0 ∨ ok = true
      · simp only [if_pos hgo]
      · simp only [if_neg hgo]

theorem eq_removed_of_mem_clearRequest {u : UInt32} :
    ∀ {list : List DBRequest}, e ∈ (clearRequest u ok list).2 → ∃ q, e = .removed q := by
  intro list
  induction list with
  | nil => intro h; simp [clearRequest] at h
  | cons p list ih =>
    intro h
    rw [clearRequest] at h
    split at h
    · split at h
      · exact ⟨p, by simpa using h⟩
      · simp at h
    · exact ih h

end DBCorrespondManager

namespace Scheduler

open DBCorrespondManager

@[simp] theorem handedOver_map_handed (l : List DBRequest) :
    handedOver (l.map .handed) = l := by
  simp [handedOver, List.filterMap_map]

/-- What ties the scheduler to the log, inside a call as well. -/
structure Sound (m : DBCorrespondManager) (outstanding : List DBRequest) (log : List Notice) :
    Prop where
  engine : m.kernelDataBaseEngine = true
  lawful : Lawful log
  pending : (Book.of log).pending = m.requestList
  flying : (Book.of log).flying = outstanding
  users : m.requestUserArray = outstanding.map (·.userID)
  fresh : ∀ r, Notice.posted r ∈ log → r.address < m.allocated
  first : ∀ q ∈ outstanding, q ∈ m.requestList ∧
    ∀ r ∈ m.requestList, r.userID = q.userID → q.address ≤ r.address

theorem Sound.sorted
    (h : Sound m outstanding log) : m.requestList.Pairwise (·.address < ·.address) := by
  rw [← h.pending]
  exact h.lawful.kept.sorted

theorem Sound.eq_of_address (h : Sound m outstanding log) (hq : q ∈ m.requestList)
    (hr : r ∈ m.requestList) (heq : q.address = r.address) : q = r := by
  have haddresses : (m.requestList.map (·.address)).Nodup :=
    List.pairwise_map.2 (h.sorted.imp fun hlt => ne_of_lt hlt)
  exact List.inj_on_of_nodup_map haddresses hq hr heq

/-- Between two calls every user with a request in the list has one at the
engine. -/
structure Inv (s : Scheduler) (log : List Notice) : Prop where
  sound : Sound s.manager s.outstanding log
  served : ∀ r ∈ s.manager.requestList, r.userID ∈ s.manager.requestUserArray

/-- Handing over the first request of a user that has none at the engine. -/
theorem Sound.hand (h : Sound m outstanding log) (hr : r ∈ m.requestList)
    (hfirst : ∀ q ∈ m.requestList, q.userID = r.userID → r.address ≤ q.address)
    (hfree : r.userID ∉ m.requestUserArray) :
    Sound { m with requestUserArray := m.requestUserArray ++ [r.userID] } (outstanding ++ [r])
      (log ++ [.handed r]) where
  engine := h.engine
  lawful := by
    refine lawful_append_singleton.2 ⟨h.lawful, ?_, ?_, ?_⟩
    · rwa [h.pending]
    · rwa [h.pending]
    · intro q hq heq
      rw [h.flying] at hq
      rw [h.users, ← heq] at hfree
      exact hfree (List.mem_map_of_mem hq)
  pending := by simpa [Book.note] using h.pending
  flying := by simp [Book.note, h.flying]
  users := by simp [h.users]
  fresh q hq := h.fresh q (by simpa using hq)
  first q hq := by
    rcases List.mem_append.1 hq with hq | hq
    · exact h.first q hq
    · rw [List.mem_singleton.1 hq]
      exact ⟨hr, hfirst⟩

/-- The walk of `PerformAmortisation`, from a point of the list on: the
users before it are served. -/
theorem Sound.postRequests (rest : List DBRequest) :
    ∀ (before : List DBRequest) {m : DBCorrespondManager} {outstanding : List DBRequest}
      {log : List Notice}, Sound m outstanding log → m.requestList = before ++ rest →
      (∀ r ∈ before, r.userID ∈ m.requestUserArray) →
      ∀ {array handed}, postRequests true rest m.requestUserArray = (array, handed) →
        Sound { m with requestUserArray := array } (outstanding ++ handed)
          (log ++ handed.map .handed) ∧ ∀ r ∈ m.requestList, r.userID ∈ array := by
  induction rest with
  | nil =>
    intro before m outstanding log h hlist hserved array handed heq
    cases heq
    rw [List.append_nil] at hlist
    simp only [List.append_nil, List.map_nil]
    exact ⟨h, fun r hr => hserved r (hlist ▸ hr)⟩
  | cons r rest ih =>
    intro before m outstanding log h hlist hserved array handed heq
    have hlist' : m.requestList = (before ++ [r]) ++ rest := by simpa using hlist
    by_cases hr : r.userID ∈ m.requestUserArray
    · rw [DBCorrespondManager.postRequests, if_pos (isPostDBRequest_iff.2 hr)] at heq
      refine ih (before ++ [r]) h hlist' (fun q hq => ?_) heq
      rcases List.mem_append.1 hq with hq | hq
      · exact hserved q hq
      · rwa [List.mem_singleton.1 hq]
    · rw [DBCorrespondManager.postRequests, if_neg (mt isPostDBRequest_iff.1 hr), if_pos rfl] at heq
      -- every request before it belongs to a user that is served
      have hfirst : ∀ q ∈ m.requestList, q.userID = r.userID → r.address ≤ q.address := by
        intro q hq huser
        rw [hlist] at hq
        rcases List.mem_append.1 hq with hq | hq
        · exact absurd (huser ▸ hserved q hq) hr
        · have hsorted := h.sorted
          rw [hlist] at hsorted
          have hhead := (List.pairwise_cons.1 (List.pairwise_append.1 hsorted).2.1).1
          rcases List.mem_cons.1 hq with rfl | hq
          · exact le_rfl
          · exact (hhead q hq).le
      have hmem : r ∈ m.requestList := by rw [hlist]; simp
      have hnext := h.hand hmem hfirst hr
      rcases hwalk : DBCorrespondManager.postRequests true rest (m.requestUserArray ++ [r.userID])
        with ⟨array', handed'⟩
      rw [hwalk] at heq
      cases heq
      have := ih (before ++ [r]) hnext hlist' (fun q hq => ?_) hwalk
      · simpa using this
      · rcases List.mem_append.1 hq with hq | hq
        · exact List.mem_append_left _ (hserved q hq)
        · rw [List.mem_singleton.1 hq]
          simp

theorem Sound.performAmortisation (h : Sound m outstanding log) :
    Inv ⟨m.performAmortisation.1, outstanding ++ m.performAmortisation.2⟩
      (log ++ m.performAmortisation.2.map .handed) := by
  rcases hwalk : DBCorrespondManager.postRequests true m.requestList m.requestUserArray
    with ⟨array, handed⟩
  have hperform : m.performAmortisation = ({ m with requestUserArray := array }, handed) := by
    rw [DBCorrespondManager.performAmortisation, h.engine, hwalk]
  obtain ⟨hsound, hserved⟩ :=
    Sound.postRequests m.requestList [] h rfl (fun r hr => by simp at hr) hwalk
  rw [hperform]
  exact ⟨hsound, hserved⟩

/-- A new request at the tail of the list. -/
theorem Sound.amortizeSyncData {m' : DBCorrespondManager}
    (h : Sound m outstanding log) {p : PostParam}
    (heq : m.amortizeSyncData p = some (m', notices)) :
    Sound m' outstanding (log ++ notices) ∧ handedOver notices = [] := by
  simp only [DBCorrespondManager.amortizeSyncData] at heq
  split at heq
  · cases heq
  · cases heq
    refine ⟨⟨h.engine, ?_, ?_, ?_, h.users, ?_, ?_⟩, rfl⟩
    · exact lawful_append_singleton.2 ⟨h.lawful, fun q hq => h.fresh q hq⟩
    · simp [Book.note, h.pending]
    · simp [Book.note, h.flying]
    · intro r hr
      simp only [List.mem_append, List.mem_singleton, Notice.posted.injEq] at hr
      rcases hr with hr | rfl
      · exact Nat.lt_succ_of_lt (h.fresh r hr)
      · exact Nat.lt_succ_self _
    · intro q hq
      obtain ⟨hmem, hfirst⟩ := h.first q hq
      refine ⟨List.mem_append_left _ hmem, fun r hr huser => ?_⟩
      rcases List.mem_append.1 hr with hr | hr
      · exact hfirst r hr huser
      · rw [List.mem_singleton.1 hr]
        rw [← h.pending] at hmem
        exact (h.fresh q (h.lawful.kept.posted q hmem)).le

theorem Sound.users_nodup (h : Sound m outstanding log) : (outstanding.map (·.userID)).Nodup := by
  rw [← h.flying]
  exact h.lawful.kept.users

/-- The users at the engine without the request that was completed. -/
theorem erase_map_userID : ∀ {outstanding : List DBRequest},
    (outstanding.map (·.userID)).Nodup → r ∈ outstanding →
    (outstanding.map (·.userID)).erase r.userID = (outstanding.erase r).map (·.userID) := by
  intro outstanding
  induction outstanding with
  | nil => intro _ hr; simp at hr
  | cons q outstanding ih =>
    intro hnodup hr
    rw [List.map_cons, List.nodup_cons] at hnodup
    by_cases hqr : q = r
    · subst hqr
      simp
    · have hr : r ∈ outstanding := (List.mem_cons.1 hr).resolve_left (Ne.symm hqr)
      have huser : q.userID ≠ r.userID := fun h => hnodup.1 (h ▸ List.mem_map_of_mem hr)
      rw [List.map_cons, List.erase_cons_tail (by simpa using huser),
        List.erase_cons_tail (by simpa using hqr), List.map_cons, ih hnodup.2 hr]

/-- A completion, up to the walk that ends it. -/
theorem Sound.complete (h : Sound m outstanding log) (hr : r ∈ outstanding) (ok : Bool) :
    Sound { m with
        requestUserArray := m.requestUserArray.erase r.userID
        requestList := (clearRequest r.userID ok m.requestList).1 } (outstanding.erase r)
      (log ++ .completed r ok :: (clearRequest r.userID ok m.requestList).2) := by
  obtain ⟨hmem, hfirst⟩ := h.first r hr
  have hcompleted : Lawful (log ++ [.completed r ok]) :=
    lawful_append_singleton.2 ⟨h.lawful, by rw [Allowed, h.flying]; exact hr⟩
  have husers : m.requestUserArray.erase r.userID = (outstanding.erase r).map (·.userID) := by
    rw [h.users, erase_map_userID h.users_nodup hr]
  rw [clearRequest_first ok hmem h.sorted hfirst]
  by_cases hgo : r.cache = 0 ∨ ok = true
  · rw [if_pos hgo]
    have happend : log ++ [.completed r ok, .removed r] =
        (log ++ [.completed r ok]) ++ [.removed r] := by simp
    have hdone : r.cache ≠ 0 → ok = true := fun hcache => hgo.resolve_left hcache
    refine ⟨h.engine, ?_, ?_, ?_, husers, fun q hq => h.fresh q (by simpa using hq), ?_⟩
    · rw [happend]
      refine lawful_append_singleton.2 ⟨hcompleted, ?_, ok, by simp, hdone⟩
      simpa [Book.note, h.pending] using hmem
    · rw [happend]
      simp only [Book.of_append_singleton, Book.note, h.pending]
    · rw [happend]
      simp only [Book.of_append_singleton, Book.note, h.flying]
    · -- another request at the engine belongs to another user
      intro q hq
      have hqr : q.userID ≠ r.userID := by
        intro heq
        have hin : r.userID ∈ (outstanding.map (·.userID)).erase r.userID := by
          rw [erase_map_userID h.users_nodup hr, ← heq]
          exact List.mem_map_of_mem hq
        exact absurd hin h.users_nodup.not_mem_erase
      obtain ⟨hqmem, hqfirst⟩ := h.first q (List.mem_of_mem_erase hq)
      refine ⟨(List.mem_erase_of_ne fun heq => hqr (by rw [heq])).2 hqmem, fun p hp => ?_⟩
      exact hqfirst p (List.mem_of_mem_erase hp)
  · rw [if_neg hgo]
    refine ⟨h.engine, hcompleted, ?_, ?_, husers, fun q hq => h.fresh q (by simpa using hq), ?_⟩
    · simpa [Book.note] using h.pending
    · simp [Book.note, h.flying]
    · exact fun q hq => h.first q (List.mem_of_mem_erase hq)

/-- A request of the list that is kept over its completion is handed over
again by the walk. -/
theorem Inv.handed_of_free {handed : List DBRequest} (h : Inv ⟨m, outstanding ++ handed⟩ log)
    (hr : r ∈ m.requestList)
    (hfirst : ∀ q ∈ m.requestList, q.userID = r.userID → r.address ≤ q.address)
    (hfree : r.userID ∉ outstanding.map (·.userID)) : r ∈ handed := by
  have hserved : r.userID ∈ m.requestUserArray := h.served r hr
  have husers : m.requestUserArray = (outstanding ++ handed).map (·.userID) := h.sound.users
  rw [husers] at hserved
  obtain ⟨q, hq, huser⟩ := List.mem_map.1 hserved
  obtain ⟨hqmem, hqfirst⟩ : q ∈ m.requestList ∧
      ∀ r ∈ m.requestList, r.userID = q.userID → q.address ≤ r.address := h.sound.first q hq
  have haddress : q.address = r.address :=
    le_antisymm (hqfirst r hr huser.symm) (hfirst q hqmem huser)
  have hsame : q = r := h.sound.eq_of_address hqmem hr haddress
  subst hsame
  exact (List.mem_append.1 hq).resolve_left fun hold => hfree (List.mem_map_of_mem hold)

/-- Every failure of a request that is to be retried is followed by
another handover of it. -/
def Retried (log : List Notice) : Prop :=
  ∀ r l₁ l₂, r.cache ≠ 0 → log = l₁ ++ .completed r false :: l₂ → Notice.handed r ∈ l₂

theorem Retried.append (h : Retried log)
    (hnew : ∀ r l₁ l₂, r.cache ≠ 0 → notices = l₁ ++ .completed r false :: l₂ →
      Notice.handed r ∈ l₂) : Retried (log ++ notices) := by
  intro r l₁ l₂ hcache heq
  rcases List.append_eq_append_iff.1 heq with ⟨c, rfl, hc⟩ | ⟨c, hc, hd⟩
  · exact hnew r c l₂ hcache hc
  · cases c with
    | nil =>
      exact hnew r [] l₂ hcache hd.symm
    | cons e c =>
      cases hd
      exact List.mem_append_left _ (h r l₁ c hcache hc)

theorem retried_of_no_completion
    (h : ∀ r ok, Notice.completed r ok ∉ notices) (r : DBRequest) (l₁ l₂ : List Notice)
    (_ : r.cache ≠ 0) (heq : notices = l₁ ++ .completed r false :: l₂) : Notice.handed r ∈ l₂ :=
  absurd (by rw [heq]; simp) (h r false)

/-- **One completion keeps the invariant**, and retries what failed. -/
theorem Inv.complete {m' : DBCorrespondManager}
    (h : Inv ⟨m, outstanding⟩ log) (hretried : Retried log) (hr : r ∈ outstanding)
    (heq : m.onPostRequestComplete r.userID ok = (m', notices)) :
    Inv ⟨m', outstanding.erase r ++ handedOver notices⟩ (log ++ .completed r ok :: notices) ∧
      Retried (log ++ .completed r ok :: notices) := by
  have hsound := h.sound.complete hr ok
  have hinv := hsound.performAmortisation
  simp only [DBCorrespondManager.onPostRequestComplete, clearUser_eq_erase, Prod.mk.injEq] at heq
  obtain ⟨rfl, rfl⟩ := heq
  have hcleared : ∀ e ∈ (clearRequest r.userID ok m.requestList).2, ∃ q, e = .removed q :=
    fun e he => eq_removed_of_mem_clearRequest he
  have hmem : r ∈ m.requestList := (h.sound.first r hr).1
  have hfirst : ∀ q ∈ m.requestList, q.userID = r.userID → r.address ≤ q.address :=
    (h.sound.first r hr).2
  have hclear := clearRequest_first ok hmem h.sound.sorted hfirst
  generalize clearRequest r.userID ok m.requestList = cleared at *
  set walked := DBCorrespondManager.performAmortisation
    { m with
      requestUserArray := m.requestUserArray.erase r.userID
      requestList := cleared.1 } with hwalked
  have hover : handedOver (cleared.2 ++ walked.2.map .handed) = walked.2 := by
    have hnone : handedOver cleared.2 = [] := by
      refine List.filterMap_eq_nil_iff.2 fun e he => ?_
      obtain ⟨q, rfl⟩ := hcleared e he
      rfl
    rw [handedOver, List.filterMap_append, ← handedOver, ← handedOver, hnone,
      handedOver_map_handed, List.nil_append]
  refine ⟨by rw [hover]; simpa using hinv, hretried.append fun q l₁ l₂ hcache hl => ?_⟩
  cases l₁ with
  | nil =>
    -- the failure of `r` itself: it stays in the list, its user is free, the walk finds it
    rw [List.nil_append] at hl
    injection hl with hhead htail
    cases hhead
    rw [if_neg (by simp [hcache])] at hclear
    have hlist : walked.1.requestList = m.requestList := by rw [hwalked, hclear]; rfl
    have hfree : r.userID ∉ (outstanding.erase r).map (·.userID) := by
      rw [← erase_map_userID h.sound.users_nodup hr]
      exact h.sound.users_nodup.not_mem_erase
    have hagain : r ∈ walked.2 :=
      hinv.handed_of_free (by rw [hlist]; exact hmem) (by rw [hlist]; exact hfirst) hfree
    rw [← htail]
    exact List.mem_append_right _ (List.mem_map_of_mem hagain)
  | cons e l₁ =>
    injection hl with _ htail
    have hin : Notice.completed q false ∈ cleared.2 ++ walked.2.map .handed := by
      rw [htail]
      simp
    rcases List.mem_append.1 hin with hin | hin
    · obtain ⟨p, hp⟩ := hcleared _ hin
      cases hp
    · simp at hin

/-- **One call keeps the invariant**, and retries what failed. -/
theorem Inv.step {c : Call} (h : Inv s log)
    (hretried : Retried log) (hstep : s.step c = some (s', notices)) :
    Inv s' (log ++ notices) ∧ Retried (log ++ notices) := by
  cases c with
  | postDataBaseRequest p =>
    simp only [Scheduler.step, DBCorrespondManager.postDataBaseRequest, Option.map_map,
      Option.map_eq_some_iff, Function.comp_apply] at hstep
    obtain ⟨⟨m, posted⟩, ham, heq⟩ := hstep
    cases heq
    obtain ⟨hsound, hnone⟩ := h.sound.amortizeSyncData ham
    have hinv := hsound.performAmortisation
    have hover : handedOver (posted ++ m.performAmortisation.2.map .handed) =
        m.performAmortisation.2 := by
      rw [handedOver, List.filterMap_append, ← handedOver, ← handedOver, hnone,
        handedOver_map_handed, List.nil_append]
    refine ⟨by rw [hover, ← List.append_assoc]; exact hinv, hretried.append ?_⟩
    refine retried_of_no_completion fun r ok hmem => ?_
    simp only [DBCorrespondManager.amortizeSyncData] at ham
    split at ham
    · cases ham
    · cases ham
      simp at hmem
  | onPostRequestComplete r ok =>
    simp only [Scheduler.step] at hstep
    split at hstep
    · next hr =>
      cases hstep
      exact h.complete hretried hr rfl
    · cases hstep
  | onTimerNotify =>
    obtain ⟨rfl, rfl⟩ := hstep
    rw [handedOver_map_handed]
    exact ⟨h.sound.performAmortisation,
      hretried.append (retried_of_no_completion fun r ok hmem => by simp at hmem)⟩

/-! ## Every run -/

theorem inv_start : Inv start [] where
  sound :=
    { engine := rfl
      lawful := lawful_nil
      pending := rfl
      flying := rfl
      users := rfl
      fresh := fun _ hr => absurd hr List.not_mem_nil
      first := fun _ hq => absurd hq List.not_mem_nil }
  served _ hr := absurd hr List.not_mem_nil

theorem inv_run {calls : List Call} {r : Scheduler × List Notice}
    (h : Machine.run step start calls = some r) : Inv r.1 r.2 ∧ Retried r.2 := by
  have := @Machine.inv_run_traced Scheduler Call Notice step
    (fun s log => Inv s log ∧ Retried log) (fun _ _ => True)
    (fun s log c s' notices hs _ hstep => hs.1.step hs.2 hstep) calls start [] r
    ⟨inv_start, fun r l₁ l₂ _ h => by simp at h⟩
    (Machine.along_of_forall (fun _ _ => trivial) calls start) h
  rwa [List.nil_append] at this

/-- A completion in the log was a call. -/
theorem completed_of_step {c : Call}
    (hstep : s.step c = some (s', notices)) (hmem : Notice.completed r ok ∈ notices) :
    c = .onPostRequestComplete r ok := by
  cases c with
  | postDataBaseRequest p =>
    simp only [Scheduler.step, DBCorrespondManager.postDataBaseRequest, Option.map_map,
      Option.map_eq_some_iff, Function.comp_apply] at hstep
    obtain ⟨⟨m, posted⟩, ham, heq⟩ := hstep
    cases heq
    simp only [DBCorrespondManager.amortizeSyncData] at ham
    split at ham
    · cases ham
    · cases ham
      simp at hmem
  | onPostRequestComplete q ok' =>
    simp only [Scheduler.step] at hstep
    split at hstep
    · cases hstep
      rcases List.mem_cons.1 hmem with heq | hmem
      · cases heq
        rfl
      · simp only [DBCorrespondManager.onPostRequestComplete, List.mem_append] at hmem
        rcases hmem with hmem | hmem
        · obtain ⟨p, hp⟩ := eq_removed_of_mem_clearRequest hmem
          cases hp
        · simp at hmem
    · cases hstep
  | onTimerNotify =>
    obtain ⟨-, rfl⟩ := hstep
    simp at hmem

/-- A completion that ends a request takes it out of the list. -/
theorem Inv.removed_of_complete (h : Inv s log) (hgo : r.cache = 0 ∨ ok = true)
    (hstep : s.step (.onPostRequestComplete r ok) = some (s', notices)) :
    Notice.removed r ∈ notices := by
  simp only [Scheduler.step] at hstep
  split at hstep
  · next hr =>
    cases hstep
    obtain ⟨hmem, hfirst⟩ := h.sound.first r hr
    have hclear := clearRequest_first ok hmem h.sound.sorted hfirst
    rw [if_pos hgo] at hclear
    simp [DBCorrespondManager.onPostRequestComplete, hclear]
  · cases hstep

/-- A request waits behind an earlier one of its user at the engine. -/
theorem Inv.waits (h : Inv s log) (hr : Notice.posted r ∈ log) (hnot : Notice.handed r ∉ log) :
    ∃ q ∈ s.outstanding, q.userID = r.userID ∧ q.address < r.address := by
  have hkept := h.sound.lawful.kept
  have hpending : r ∈ s.manager.requestList := by
    rw [← h.sound.pending]
    refine (hkept.removed r hr).2 fun hrem => ?_
    obtain ⟨⟨ok, hdone, -⟩, -⟩ := hkept.settled r hrem
    exact hnot (hkept.tried r ok hdone)
  have hserved := h.served r hpending
  rw [h.sound.users] at hserved
  obtain ⟨q, hq, huser⟩ := List.mem_map.1 hserved
  have hle : q.address ≤ r.address := (h.sound.first q hq).2 r hpending huser.symm
  refine ⟨q, hq, huser, lt_of_le_of_ne hle fun heq => ?_⟩
  have hsame : q = r := h.sound.eq_of_address (h.sound.first q hq).1 hpending heq
  rw [hsame, ← h.sound.flying] at hq
  exact hnot (hkept.handed r hq)

/-! ## Endless runs -/

/-- The engine completes every request it is handed. -/
def Completes (calls : ℕ → Call) : Prop :=
  ∀ n s log, Machine.run step start (Machine.first calls n) = some (s, log) →
    ∀ r ∈ s.outstanding, ∃ m ≥ n, ∃ ok, calls m = .onPostRequestComplete r ok

/-- An earlier request of the same user that is retried without end. -/
def Starved (calls : ℕ → Call) (r : DBRequest) : Prop :=
  ∃ q : DBRequest, q.userID = r.userID ∧ q.address < r.address ∧ q.cache ≠ 0 ∧
    (∀ n, calls n ≠ .onPostRequestComplete q true) ∧
    ∀ n, ∃ m ≥ n, calls m = .onPostRequestComplete q false

/-- The requests of the same user that stand before `r` in the list. -/
def ahead (s : Scheduler) (r : DBRequest) : Finset DBRequest :=
  (s.manager.requestList.filter fun q => q.userID = r.userID ∧ q.address < r.address).toFinset

theorem mem_ahead :
    q ∈ s.ahead r ↔ q ∈ s.manager.requestList ∧ q.userID = r.userID ∧ q.address < r.address := by
  simp [ahead]

structure EndlessRun (calls : ℕ → Call) (S : ℕ → Scheduler) (L : ℕ → List Notice) : Prop where
  runs : ∀ n, Machine.run step start (Machine.first calls n) = some (S n, L n)
  nil : L 0 = []
  next : ∀ n, ∃ notices, (S n).step (calls n) = some (S (n + 1), notices) ∧
    L (n + 1) = L n ++ notices

namespace EndlessRun

variable {calls : ℕ → Call} {S : ℕ → Scheduler} {L : ℕ → List Notice}

section

variable (h : EndlessRun calls S L)
include h

theorem inv (n : ℕ) : Inv (S n) (L n) := (inv_run (h.runs n)).1

theorem mono {m : ℕ} (hnm : n ≤ m) : ∃ l, L m = L n ++ l := by
  induction m, hnm using Nat.le_induction with
  | base => exact ⟨[], by simp⟩
  | succ m _ ih =>
    obtain ⟨l, hl⟩ := ih
    obtain ⟨notices, -, hnext⟩ := h.next m
    exact ⟨l ++ notices, by rw [hnext, hl, List.append_assoc]⟩

theorem mem_mono {m : ℕ} (hnm : n ≤ m) (he : e ∈ L n) : e ∈ L m := by
  obtain ⟨l, hl⟩ := h.mono hnm
  rw [hl]
  exact List.mem_append_left _ he

theorem called :
    ∀ {n : ℕ}, Notice.completed r ok ∈ L n → ∃ m, calls m = .onPostRequestComplete r ok := by
  intro n
  induction n with
  | zero => intro hmem; rw [h.nil] at hmem; simp at hmem
  | succ n ih =>
    intro hmem
    obtain ⟨notices, hstep, hnext⟩ := h.next n
    rw [hnext] at hmem
    rcases List.mem_append.1 hmem with hmem | hmem
    · exact ih hmem
    · exact ⟨n, completed_of_step hstep hmem⟩

theorem mem_list_iff (hq : Notice.posted q ∈ L n) :
    q ∈ (S n).manager.requestList ↔ Notice.removed q ∉ L n := by
  rw [← (h.inv n).sound.pending]
  exact (h.inv n).sound.lawful.kept.removed q hq

/-- What stands before a request at a later time stood before it earlier. -/
theorem ahead_mono {m : ℕ} (hnm : n ≤ m) (hr : Notice.posted r ∈ L n) :
    (S m).ahead r ⊆ (S n).ahead r := by
  intro q hq
  rw [mem_ahead] at hq ⊢
  obtain ⟨hmem, huser, hlt⟩ := hq
  have hposted : Notice.posted q ∈ L m := by
    rw [← (h.inv m).sound.pending] at hmem
    exact (h.inv m).sound.lawful.kept.posted q hmem
  obtain ⟨l, hl⟩ := h.mono hnm
  have hold : Notice.posted q ∈ L n := by
    by_contra hnot
    have hnew : Notice.posted q ∈ l := by
      rw [hl] at hposted
      exact (List.mem_append.1 hposted).resolve_left hnot
    have hlawful := (h.inv m).sound.lawful
    rw [hl] at hlawful
    have := hlawful.address_lt hr hnew
    omega
  refine ⟨(h.mem_list_iff hold).2 fun hrem => ?_, huser, hlt⟩
  exact (h.mem_list_iff hposted).1 hmem (h.mem_mono hnm hrem)

theorem removed_of_call {m : ℕ} (hgo : q.cache = 0 ∨ ok = true)
    (hcall : calls m = .onPostRequestComplete q ok) : Notice.removed q ∈ L (m + 1) := by
  obtain ⟨notices, hstep, hnext⟩ := h.next m
  rw [hcall] at hstep
  rw [hnext]
  exact List.mem_append_right _ ((h.inv m).removed_of_complete hgo hstep)

/-- A retried request that never succeeds fails again and again. -/
theorem fails_forever (hfair : Completes calls) (hq : q ∈ (S n).outstanding)
    (hcache : q.cache ≠ 0) (hnever : ∀ m, calls m ≠ .onPostRequestComplete q true) (m : ℕ) :
    ∃ k ≥ m, calls k = .onPostRequestComplete q false := by
  obtain ⟨hlist, hfirst⟩ := (h.inv n).sound.first q hq
  have hkept := (h.inv n).sound.lawful.kept
  have hposted : Notice.posted q ∈ L n := by
    rw [← (h.inv n).sound.pending] at hlist
    exact hkept.posted q hlist
  have hk := Nat.le_max_left n m
  have hstays : q ∈ (S (max n m)).manager.requestList := by
    refine (h.mem_list_iff (h.mem_mono hk hposted)).2 fun hrem => ?_
    obtain ⟨⟨ok, hdone, hok⟩, -⟩ := (h.inv (max n m)).sound.lawful.kept.settled q hrem
    obtain ⟨j, hj⟩ := h.called hdone
    rw [hok hcache] at hj
    exact hnever j hj
  -- it is still the first of its user, so the one at the engine is this one
  have hserved := (h.inv (max n m)).served q hstays
  rw [(h.inv (max n m)).sound.users] at hserved
  obtain ⟨p, hp, huser⟩ := List.mem_map.1 hserved
  obtain ⟨hpmem, hpfirst⟩ := (h.inv (max n m)).sound.first p hp
  have hple : p.address ≤ q.address := hpfirst q hstays huser.symm
  have hsame : p = q := by
    rcases Nat.lt_or_ge p.address q.address with hlt | hge
    · have hbefore : p ∈ (S n).ahead q := h.ahead_mono hk hposted (mem_ahead.2 ⟨hpmem, huser, hlt⟩)
      have := hfirst p (mem_ahead.1 hbefore).1 huser
      omega
    · exact (h.inv (max n m)).sound.eq_of_address hpmem hstays (le_antisymm hple hge)
  subst hsame
  obtain ⟨k, hkm, ok, hcall⟩ := hfair _ _ _ (h.runs (max n m)) p hp
  refine ⟨k, by omega, ?_⟩
  cases ok with
  | false => exact hcall
  | true => exact absurd hcall (hnever k)

/-- **Handed over, or starved.** By induction on how many requests of the
user stand before it: the first of them is at the engine; either it is
retried for ever, or its completion takes it out of the list. -/
theorem handed_or_starved (hfair : Completes calls) :
    ∀ (k n : ℕ), Notice.posted r ∈ L n → ((S n).ahead r).card ≤ k →
      (∃ m, Notice.handed r ∈ L m) ∨ Starved calls r := by
  intro k
  induction k with
  | zero =>
    intro n hr hcard
    by_cases hhand : Notice.handed r ∈ L n
    · exact Or.inl ⟨n, hhand⟩
    · obtain ⟨q, hq, huser, hlt⟩ := (h.inv n).waits hr hhand
      have hmem : q ∈ (S n).ahead r := mem_ahead.2 ⟨((h.inv n).sound.first q hq).1, huser, hlt⟩
      have := Finset.card_pos.2 ⟨q, hmem⟩
      omega
  | succ k ih =>
    intro n hr hcard
    by_cases hhand : Notice.handed r ∈ L n
    · exact Or.inl ⟨n, hhand⟩
    obtain ⟨q, hq, huser, hlt⟩ := (h.inv n).waits hr hhand
    have hmem : q ∈ (S n).ahead r := mem_ahead.2 ⟨((h.inv n).sound.first q hq).1, huser, hlt⟩
    have hgone : ∀ m ≥ n, Notice.removed q ∈ L m → (∃ m, Notice.handed r ∈ L m) ∨ Starved calls r := by
      intro m hm hrem
      refine ih m (h.mem_mono hm hr) ?_
      have hsub : (S m).ahead r ⊂ (S n).ahead r := by
        refine Finset.ssubset_iff_subset_ne.2 ⟨h.ahead_mono hm hr, fun heq => ?_⟩
        rw [← heq] at hmem
        have hposted := ((h.inv m).sound.lawful.kept.settled q hrem).2
        exact (h.mem_list_iff hposted).1 (mem_ahead.1 hmem).1 hrem
      have := Finset.card_lt_card hsub
      omega
    by_cases hretry : q.cache ≠ 0 ∧ ∀ m, calls m ≠ .onPostRequestComplete q true
    · exact Or.inr ⟨q, huser, hlt, hretry.1, hretry.2, h.fails_forever hfair hq hretry.1 hretry.2⟩
    · obtain ⟨m, ok, hgo, hcall⟩ : ∃ m ok, (q.cache = 0 ∨ ok = true) ∧
          calls m = .onPostRequestComplete q ok := by
        by_cases hcache : q.cache = 0
        · obtain ⟨m, -, ok, hcall⟩ := hfair n _ _ (h.runs n) q hq
          exact ⟨m, ok, Or.inl hcache, hcall⟩
        · push Not at hretry
          obtain ⟨m, hcall⟩ := hretry hcache
          exact ⟨m, true, Or.inr rfl, hcall⟩
      exact hgone (max n (m + 1)) (le_max_left _ _)
        (h.mem_mono (le_max_right _ _) (h.removed_of_call hgo hcall))

end

end EndlessRun

/-! ## What the scheduler promises -/

/-- What holds after any sequence of calls, of the state and of the log. -/
structure Scheduled (s : Scheduler) (log : List Notice) : Prop where
  /-- The log and the state agree on what is at the engine, and in the list. -/
  engine : (Book.of log).flying = s.outstanding
  listed : ∀ r, r ∈ s.manager.requestList ↔ Notice.posted r ∈ log ∧ Notice.removed r ∉ log
  /-- At every moment, inside a call too, a user has at most one at the engine. -/
  one : ∀ l₁ l₂, log = l₁ ++ l₂ → ∀ u, ((Book.of l₁).flying.filter (·.userID = u)).length ≤ 1
  /-- All handovers of the earlier request come before those of the later. -/
  ordered : ∀ q r a b l₁ l₂, q.userID = r.userID → log = a ++ .posted r :: b →
    Notice.posted q ∈ a → log = l₁ ++ .handed r :: l₂ →
    Notice.handed q ∈ l₁ ∧ Notice.handed q ∉ l₂
  dropped : ∀ r l₁ l₂, log = l₁ ++ .removed r :: l₂ → ∃ ok, Notice.completed r ok ∈ l₁
  retried : ∀ r l₁ l₂, r.cache ≠ 0 → log = l₁ ++ .completed r false :: l₂ → Notice.handed r ∈ l₂
  /-- A retried request succeeds before a later one of its user is handed over. -/
  succeeds : ∀ q r a b l₁ l₂, q.userID = r.userID → q.cache ≠ 0 → log = a ++ .posted r :: b →
    Notice.posted q ∈ a → log = l₁ ++ .handed r :: l₂ → Notice.completed q true ∈ l₁

theorem Inv.scheduled (h : Inv s log) (hretried : Retried log) :
    Scheduled s log where
  engine := h.sound.flying
  listed r := by
    have hkept := h.sound.lawful.kept
    rw [← h.sound.pending]
    refine ⟨fun hr => ?_, fun hr => (hkept.removed r hr.1).2 hr.2⟩
    have hposted := hkept.posted r hr
    exact ⟨hposted, (hkept.removed r hposted).1 hr⟩
  one l₁ l₂ heq u := by
    have hlawful := h.sound.lawful
    rw [heq] at hlawful
    exact hlawful.of_append.flying_le_one u
  ordered q r a b l₁ l₂ huser hpost hq hhand := by
    have hlawful := h.sound.lawful
    obtain ⟨⟨ok, hdone, -⟩, hnot⟩ := hlawful.order huser hpost hq hhand
    rw [hhand] at hlawful
    exact ⟨hlawful.of_append.kept.tried q ok hdone, hnot⟩
  dropped r l₁ l₂ heq := by
    obtain ⟨ok, hdone, -⟩ := h.sound.lawful.settled_of_removed heq
    exact ⟨ok, hdone⟩
  retried := hretried
  succeeds q r a b l₁ l₂ huser hcache hpost hq hhand := by
    obtain ⟨⟨ok, hdone, hok⟩, -⟩ := h.sound.lawful.order huser hpost hq hhand
    rw [hok hcache] at hdone
    exact hdone

/-- **The scheduler, over every interleaving.** After any calls one user
has at most one request at the engine, handed over in the order posted,
dropped only when completed and retried until it succeeds. Over an endless
run whose handovers are all completed, a posted request is handed over
unless an earlier one of its user is retried without end. -/
theorem requests_scheduled :
    (∀ calls s log, Machine.run step start calls = some (s, log) → Scheduled s log) ∧
      ∀ calls : ℕ → Call, Machine.Endless step start calls → Completes calls →
        ∀ n s log r, Machine.run step start (Machine.first calls n) = some (s, log) →
          Notice.posted r ∈ log →
          (∃ m s' log', Machine.run step start (Machine.first calls m) = some (s', log') ∧
            Notice.handed r ∈ log') ∨ Starved calls r := by
  refine ⟨fun calls s log h => ?_, fun calls hrun hfair n s log r h hr => ?_⟩
  · obtain ⟨hinv, hretried⟩ := inv_run h
    exact hinv.scheduled hretried
  · obtain ⟨S, L, hruns, -, hnil, hnext⟩ := hrun.states
    have hendless : EndlessRun calls S L := ⟨hruns, hnil, hnext⟩
    have hlog : L n = log := by
      have heq := (hruns n).symm.trans h
      exact congrArg Prod.snd (Option.some.inj heq)
    rw [← hlog] at hr
    rcases hendless.handed_or_starved hfair _ n hr le_rfl with ⟨m, hm⟩ | hstarved
    · exact Or.inl ⟨m, S m, L m, hruns m, hm⟩
    · exact Or.inr hstarved

/-! ### A request that is retried without end -/

/-- A score written with the cache flag, and a bank deposit behind it. -/
def scorePost : PostParam := ⟨7, 3, 0, [], 1, by decide⟩

def savePost : PostParam := ⟨7, 11, 0, [], 0, by decide⟩

def scoreRequest : DBRequest := ⟨0, 1, 7, 0, 3, []⟩

def saveRequest : DBRequest := ⟨1, 0, 7, 0, 11, []⟩

/-- Both are posted, then writing the score fails each time. -/
def failing : ℕ → Call
  | 0 => .postDataBaseRequest scorePost
  | 1 => .postDataBaseRequest savePost
  | _ => .onPostRequestComplete scoreRequest false

/-- Where the failures leave the scheduler. -/
def stuck : Scheduler where
  manager := { requestList := [scoreRequest, saveRequest], requestUserArray := [7], allocated := 2 }
  outstanding := [scoreRequest]

/-- One failure: the request is handed over again. -/
def again : List Notice := [.completed scoreRequest false, .handed scoreRequest]

theorem failing_run (n : ℕ) :
    Machine.run step start (Machine.first failing (n + 2)) =
      some (stuck, [.posted scoreRequest, .handed scoreRequest, .posted saveRequest] ++
        (List.replicate n again).flatten) := by
  induction n with
  | zero => rfl
  | succ n ih =>
    have hstep : step stuck (failing (n + 2)) = some (stuck, again) := rfl
    rw [Machine.run_first_succ, ih, Option.bind_some, hstep, Option.map_some,
      List.replicate_succ', List.flatten_append]
    simp

theorem failing_endless : Machine.Endless step start failing
  | 0 => rfl
  | 1 => rfl
  | n + 2 => by rw [failing_run]; rfl

theorem failing_completes : Completes failing := by
  intro n s log h r hr
  have houtstanding : s.outstanding = [scoreRequest] ∨ s.outstanding = [] := by
    match n with
    | 0 => cases h; exact Or.inr rfl
    | 1 => cases h; exact Or.inl rfl
    | n + 2 => rw [failing_run] at h; cases h; exact Or.inl rfl
  have hsame : r = scoreRequest := by
    rcases houtstanding with heq | heq
    · rw [heq] at hr
      exact List.mem_singleton.1 hr
    · rw [heq] at hr
      exact absurd hr List.not_mem_nil
  exact ⟨n + 2, by omega, false, by rw [hsame]; rfl⟩

/-- **A request can wait for ever.** Every request handed over is
completed, but the score never succeeds: the deposit behind it is posted
and not handed over at any time. -/
theorem later_request_starved :
    Machine.Endless step start failing ∧ Completes failing ∧
      (∃ s log, Machine.run step start (Machine.first failing 2) = some (s, log) ∧
        Notice.posted saveRequest ∈ log) ∧
      ∀ n s log, Machine.run step start (Machine.first failing n) = some (s, log) →
        Notice.handed saveRequest ∉ log := by
  refine ⟨failing_endless, failing_completes, ⟨_, _, failing_run 0, by decide⟩, ?_⟩
  intro n s log h
  match n with
  | 0 => cases h; decide
  | 1 => cases h; decide
  | n + 2 =>
    rw [failing_run] at h
    cases h
    intro hmem
    rcases List.mem_append.1 hmem with hmem | hmem
    · revert hmem
      decide
    · obtain ⟨l, hl, hmem⟩ := List.mem_flatten.1 hmem
      rw [List.eq_of_mem_replicate hl] at hmem
      revert hmem
      decide

/-- The promise, on that run. -/
theorem requests_scheduled_failing :
    Scheduled stuck [.posted scoreRequest, .handed scoreRequest, .posted saveRequest] ∧
      ((∃ m s' log', Machine.run step start (Machine.first failing m) = some (s', log') ∧
        Notice.handed saveRequest ∈ log') ∨ Starved failing saveRequest) :=
  ⟨requests_scheduled.1 (Machine.first failing 2) _ _ (failing_run 0),
    requests_scheduled.2 failing failing_endless failing_completes 2 _ _ saveRequest
      (failing_run 0) (by decide)⟩

end Scheduler

end GameServer.ServiceUnits
