import GameServer.GameService.TableSteps
/-!
# GameService — one seat for each user

Whatever is asked of a table and in whatever order, users sit where they
say they sit, once, and the count of seated users is right
(`run_keeps_seats`) — as long as only users from elsewhere are seated.
The table asserts that but does not test it, and a user who is seated
again sits at two chairs (`seated_twice`).
-/

namespace GameServer.GameService

open TableState

variable {opt : TableOption} {s : TableState}

/-- The chairs that are taken, in the whole array. -/
def occupiedChairs (s : TableState) : ℕ :=
  (List.range maxChair).countP fun c => (s.table.tableUserItem c).isSome

/-- **The seats of a table in order.** The count may be behind only while
somebody stands up. -/
structure SeatsOk (opt : TableOption) (s : TableState) : Prop where
  one_chair : ∀ c c' user, s.table.tableUserItem c = some user →
    s.table.tableUserItem c' = some user → c = c'
  chair_or_lookon : ∀ c user, s.table.tableUserItem c = some user → user ∉ s.table.lookonUserItem
  lookon_once : s.table.lookonUserItem.Nodup
  at_chair : ∀ c user, s.table.tableUserItem c = some user →
    (s.users user).tableID = opt.tableID ∧ (s.users user).chairID = c ∧
      Seated (s.users user).userStatus
  at_lookon : ∀ user ∈ s.table.lookonUserItem, (s.users user).userStatus = .lookon
  count : leavingUsers s.stack = [] → s.table.userCount = occupiedChairs s

/-- `GetSitUserCount` counts all chairs that are taken: those behind the
table's own stay empty. -/
theorem getSitUserCount_eq_occupiedChairs (h : SeatInv opt s) :
    s.getSitUserCount opt = occupiedChairs s := by
  have hsplit : List.range maxChair = List.range opt.chairCount ++
      (List.range (maxChair - opt.chairCount)).map (opt.chairCount + ·) := by
    rw [← List.range_add, Nat.add_sub_cancel' opt.chairCount_le]
  have hbehind : ((List.range (maxChair - opt.chairCount)).map (opt.chairCount + ·)).countP
      (fun c => (s.table.tableUserItem c).isSome) = 0 := by
    rw [List.countP_eq_zero]
    intro c hc htaken
    obtain ⟨d, -, rfl⟩ := List.mem_map.1 hc
    obtain ⟨user, huser⟩ := Option.isSome_iff_exists.1 htaken
    have := (h.chair _ user huser).1
    omega
  unfold getSitUserCount occupiedChairs
  rw [hsplit, List.countP_append, hbehind, Nat.add_zero]
  refine List.countP_congr fun c hc => ?_
  rw [getTableUserItem, if_pos (List.mem_range.1 hc)]

theorem SeatInv.seatsOk (h : SeatInv opt s) : SeatsOk opt s where
  one_chair := fun _ _ _ hc hc' => h.chair_unique hc hc'
  chair_or_lookon := fun _ _ hc => (h.chair_only hc).1
  lookon_once := h.lookon_nodup
  at_chair := fun c user hc =>
    have hat := (h.chair c user hc).2
    ⟨hat.tableID, hat.chairID, hat.status⟩
  at_lookon := fun user hmem => (h.lookon user hmem).status
  count := fun hleaving => (h.count hleaving).trans (getSitUserCount_eq_occupiedChairs h)

theorem seatInv_empty (users : ℕ → ServerUserItem) : SeatInv opt { users } where
  chair := nofun
  lookon := nofun
  lookon_nodup := List.nodup_nil
  leaving := nofun
  leaving_nodup := List.nodup_nil
  count := fun _ => by
    symm
    refine List.countP_eq_zero.2 fun c _ => ?_
    unfold getTableUserItem
    split_ifs <;> exact Bool.false_ne_true

/-- **The seats of a run.** From an empty table, as long as every step is
admissible, the seats are in order. -/
theorem run_keeps_seats (users : ℕ → ServerUserItem) {events : List TableEvent}
    {r : TableState × List TableOutput}
    (hal : Machine.Along (step opt) (Admissible opt) { users } events)
    (hr : Machine.run (step opt) { users } events = some r) : SeatsOk opt r.1 := by
  refine SeatInv.seatsOk (Machine.inv_run ?_ events _ r (seatInv_empty users) hal hr)
  intro s event s' out hinv hadm hstep
  exact (step_moves hinv hadm hstep).seats hinv

def goldTable : TableOption where
  tableID := 0
  tableID_lt := by decide
  chairCount := 2
  chairCount_le := by decide
  serverType := gameGenreGold
  serviceScore := 10

/-- Users with a hundred each. -/
def guests (user : ℕ) : ServerUserItem := { userID := if user = 0 then 7 else 8, lScore := 100 }

/-- Two users sit down and the first one leaves. -/
theorem run_keeps_seats_left : ∃ r,
    Machine.run (step goldTable) { users := guests }
      [.call (.performSitDownAction 0 0 false), .resume false,
        .call (.performSitDownAction 1 1 false), .resume false,
        .call (.performStandUpAction 0 true), .resume false, .resume false, .resume false] =
      some r ∧ r.1.table.userCount = 1 ∧ SeatsOk goldTable r.1 := by
  have hrun : (Machine.run (step goldTable) { users := guests }
      [.call (.performSitDownAction 0 0 false), .resume false,
        .call (.performSitDownAction 1 1 false), .resume false,
        .call (.performStandUpAction 0 true), .resume false, .resume false, .resume false]).map
      (·.1.table.userCount) = some 1 := rfl
  obtain ⟨r, hrun, hcount⟩ := Option.map_eq_some_iff.1 hrun
  refine ⟨r, hrun, hcount, run_keeps_seats guests ?_ hrun⟩
  refine Machine.along_cons rfl (fun _ _ => ⟨by decide, by decide, by decide⟩) ?_
  refine Machine.along_cons rfl trivial ?_
  refine Machine.along_cons rfl (fun _ _ => ⟨by decide, by decide, by decide⟩) ?_
  refine Machine.along_cons rfl trivial ?_
  refine Machine.along_cons rfl trivial (Machine.along_cons rfl trivial ?_)
  exact Machine.along_cons rfl trivial (Machine.along_cons rfl trivial trivial)

/-- **A user who is seated again sits at two chairs.** Nothing but an
assertion keeps a seated user from another chair of his table. -/
theorem seated_twice : ∃ r,
    Machine.run (step goldTable) { users := guests }
      [.call (.performSitDownAction 0 0 false), .resume false,
        .call (.performSitDownAction 1 0 false), .resume false] = some r ∧
      r.1.stack = [] ∧ ¬ SeatsOk goldTable r.1 := by
  have hrun : (Machine.run (step goldTable) { users := guests }
      [.call (.performSitDownAction 0 0 false), .resume false,
        .call (.performSitDownAction 1 0 false), .resume false]).map
      (fun r => (r.1.stack, r.1.table.tableUserItem 0, r.1.table.tableUserItem 1)) =
        some ([], some 0, some 0) := rfl
  obtain ⟨r, hrun, heq⟩ := Option.map_eq_some_iff.1 hrun
  obtain ⟨hstack, heq⟩ := Prod.mk.inj heq
  obtain ⟨h₀, h₁⟩ := Prod.mk.inj heq
  refine ⟨r, hrun, hstack, fun hok => ?_⟩
  have := hok.one_chair 0 1 0 h₀ h₁
  omega

end GameServer.GameService
