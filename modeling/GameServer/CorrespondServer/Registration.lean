import GameServer.CorrespondServer.Model.AttemperEngineSink
import GameServer.CorrespondServer.Rooms
/-!
# CorrespondServer — registration and collection

The binding of a connection, the directory and the rooms that wait are
three records of one fact (`Bound`). They agree as long as a connection
that is bound to a room does not register again (`registered_iff`).
-/

namespace GameServer.CorrespondServer

open KernelEngine (loWord)

variable {message : Message} {sends : List Send} {request : Request} {r : Reply}

/-! ## What is said of a connection -/

def Connection.requests (c : Connection) : ℕ := c.sent.count .collectRequest

/-- A collect request starts the collection, its answer ends it. -/
def Traffic.collect (collecting : Bool) : Traffic → Bool
  | .sent .collectRequest => true
  | .received .userFinish => false
  | _ => collecting

/-- The room was asked and has not finished since. -/
def Connection.collecting (c : Connection) : Bool := c.traffic.foldl Traffic.collect false

/-- The connection is bound to a room. -/
def Game (s : System) (i : ℕ) : Prop := (s.sink.bindParameter i).serviceKind = .game

instance (s : System) (i : ℕ) : Decidable (Game s i) := inferInstanceAs (Decidable (_ = _))

def RoomConnection (s : System) (i : ℕ) : Prop := (s.net i).isSome = true ∧ Game s i

def queue (s : System) : List ℕ := s.sink.collectItem.toList ++ s.sink.waitCollectItemArray

/-- **What the registration of the rooms is for.** -/
structure Registered (s : System) : Prop where
  room : ∀ k i g, s.sink.globalInfoManager.room k = some (i, g) →
    RoomConnection s i ∧ ∀ j, RoomConnection s j ∧ (s.sink.bindParameter j).serviceID = k ↔ j = i
  distinct : (queue s).Nodup
  chosen : ∀ i ∈ queue s, RoomConnection s i
  waits : s.sink.waitCollectItemArray ≠ [] → ∃ i, s.sink.collectItem = some i
  collecting : ∀ i c, s.net i = some c → Game s i →
    (c.collecting = true ↔ s.sink.collectItem = some i)
  once : ∀ i c, s.net i = some c → Game s i → c.requests ≤ 1
  served : ∀ i c, s.net i = some c → Game s i →
    (∀ j d, j ≠ i → s.net j = some d → Game s j → d.collecting = false) → c.requests = 1

/-! ## The invariant -/

/-- The three records, and what each connection was sent. -/
structure Bound (s : System) : Prop where
  rooms : Rooms s.sink.globalInfoManager
  index : ∀ i c, s.net i = some c → loWord c.socketID = i ∧ c.socketID ≠ 0 ∧
    (s.sink.bindParameter i).socketID = c.socketID
  dead : ∀ i, s.net i = none → (s.sink.bindParameter i).serviceKind = .none
  game : ∀ i, Game s i →
    ∃ g, s.sink.globalInfoManager.room (s.sink.bindParameter i).serviceID = some (i, g)
  room : ∀ k i g, s.sink.globalInfoManager.room k = some (i, g) →
    Game s i ∧ (s.sink.bindParameter i).serviceID = k
  ready : ∀ i c, s.net i = some c → Game s i → 0 < c.recvPacketCount
  distinct : (queue s).Nodup
  chosen : ∀ i ∈ queue s, Game s i
  asked : ∀ i c, s.net i = some c →
    c.requests = if Game s i ∧ i ∉ s.sink.waitCollectItemArray then 1 else 0
  collecting : ∀ i c, s.net i = some c → (c.collecting = true ↔ s.sink.collectItem = some i)

/-- Rooms wait only while one collects. -/
def Busy (s : System) : Prop :=
  s.sink.waitCollectItemArray ≠ [] → ∃ i, s.sink.collectItem = some i

variable {s s' : System} {i j k : ℕ} {c d : Connection}

theorem Bound.live (h : Bound s) (hi : Game s i) : ∃ c, s.net i = some c := by
  cases hc : s.net i with
  | none => exact absurd (hi.symm.trans (h.dead i hc)) (by decide)
  | some c => exact ⟨c, rfl⟩

theorem Bound.connection (h : Bound s) (hi : Game s i) : RoomConnection s i := by
  obtain ⟨c, hc⟩ := h.live hi
  exact ⟨by rw [hc]; rfl, hi⟩

theorem Bound.not_waiting (h : Bound s) (hi : s.sink.collectItem = some i) :
    i ∉ s.sink.waitCollectItemArray := by
  have hdistinct := h.distinct
  rw [queue, hi] at hdistinct
  exact (List.nodup_cons.1 hdistinct).1

theorem Bound.registered (h : Bound s) (hbusy : Busy s) : Registered s where
  room k i g hk := by
    obtain ⟨hi, hserve⟩ := h.room k i g hk
    refine ⟨h.connection hi, fun j => ⟨fun hj => ?_, fun hj => hj ▸ ⟨h.connection hi, hserve⟩⟩⟩
    obtain ⟨g', hg'⟩ := h.game j hj.1.2
    rw [hj.2, hk] at hg'
    exact (congrArg Prod.fst (Option.some.inj hg')).symm
  distinct := h.distinct
  chosen i hi := h.connection (h.chosen i hi)
  waits := hbusy
  collecting i c hc _ := h.collecting i c hc
  once i c hc _ := by
    rw [h.asked i c hc]
    split <;> omega
  served i c hc hi hothers := by
    rw [h.asked i c hc, if_pos]
    refine ⟨hi, fun hwait => ?_⟩
    -- While it waits, another room collects.
    obtain ⟨j, hj⟩ := hbusy (List.ne_nil_of_mem hwait)
    have hgame : Game s j := h.chosen j (by rw [queue, hj]; exact List.mem_cons_self)
    obtain ⟨d, hd⟩ := h.live hgame
    have hne : j ≠ i := fun hji => h.not_waiting hj (hji ▸ hwait)
    have hcollecting := (h.collecting j d hd).2 hj
    rw [hothers j d hne hd hgame] at hcollecting
    cases hcollecting

/-! ## What is sent -/

/-- The same connection for the registration. -/
structure Alike (c d : Connection) : Prop where
  socketID : d.socketID = c.socketID
  recv : c.recvPacketCount ≤ d.recvPacketCount
  requests : d.requests = c.requests
  collecting : d.collecting = c.collecting

theorem Alike.refl (c : Connection) : Alike c c := ⟨rfl, Nat.le_refl _, rfl, rfl⟩

theorem Alike.trans {e : Connection} (h : Alike c d) (h' : Alike d e) : Alike c e where
  socketID := h'.socketID.trans h.socketID
  recv := h.recv.trans h'.recv
  requests := h'.requests.trans h.requests
  collecting := h'.collecting.trans h.collecting

theorem requests_log_sent (c : Connection) (message : Message) :
    (c.log (.sent message)).requests =
      c.requests + if message = .collectRequest then 1 else 0 := by
  simp only [Connection.requests, Connection.sent, Connection.log, List.filterMap_append,
    List.count_append]
  by_cases h : message = .collectRequest
  · subst h
    rfl
  · rw [if_neg h]
    exact congrArg _ (List.count_eq_zero_of_not_mem (by simpa using Ne.symm h))

theorem requests_log_received (c : Connection) (request : Request) :
    (c.log (.received request)).requests = c.requests := by
  simp [Connection.requests, Connection.sent, Connection.log]

theorem collecting_log (c : Connection) (t : Traffic) :
    (c.log t).collecting = t.collect c.collecting := by
  simp [Connection.collecting, Connection.log]

theorem alike_log_sent (c : Connection) (h : message ≠ .collectRequest) :
    Alike c (c.log (.sent message)) where
  socketID := rfl
  recv := Nat.le_refl _
  requests := by rw [requests_log_sent, if_neg h, Nat.add_zero]
  collecting := by
    rw [collecting_log]
    cases message with
    | collectRequest => exact absurd rfl h
    | _ => rfl

theorem alike_log_received (c : Connection) (h : request = .userFinish → c.collecting = false) :
    Alike c (c.log (.received request)) where
  socketID := rfl
  recv := Nat.le_refl _
  requests := requests_log_received c request
  collecting := by
    rw [collecting_log]
    cases request with
    | userFinish => exact (h rfl).symm
    | _ => rfl

/-- No collect request is among what is sent. -/
def Quiet (sends : List Send) : Prop :=
  ∀ x ∈ sends, x ≠ .batch .collectRequest ∧ ∀ socketID, x ≠ .data socketID .collectRequest

theorem alike_take (c : Connection) {x : Send} (h : Quiet [x]) : Alike c (c.take x) := by
  obtain ⟨hbatch, hdata⟩ := h x List.mem_cons_self
  cases x with
  | data socketID message =>
    have hne : message ≠ .collectRequest := fun heq => hdata socketID (by rw [heq])
    have htake : c.take (.data socketID message) = c.log (.sent message) ∨
        c.take (.data socketID message) = c := ite_eq_or_eq ..
    rcases htake with heq | heq
    · rw [heq]
      exact alike_log_sent c hne
    · rw [heq]
      exact .refl c
  | batch message =>
    have hne : message ≠ .collectRequest := fun heq => hbatch (by rw [heq])
    rw [Connection.take]
    split
    · exact alike_log_sent c hne
    · exact .refl c
  | shutDown socketID => exact .refl c
  | allowBatch socketID allow =>
    rw [Connection.take]
    split
    · exact ⟨rfl, Nat.le_refl _, rfl, rfl⟩
    · exact .refl c

theorem alike_foldl : ∀ {sends : List Send}, Quiet sends →
    ∀ c : Connection, Alike c (sends.foldl Connection.take c) := by
  intro sends
  induction sends with
  | nil => exact fun _ c => .refl c
  | cons x sends ih =>
    intro h c
    have hx : Quiet [x] := fun y hy => h y (by rw [List.mem_singleton.1 hy]; exact List.mem_cons_self)
    exact (alike_take c hx).trans (ih (fun y hy => h y (List.mem_cons_of_mem _ hy)) _)

theorem quiet_append {a b : List Send} (ha : Quiet a) (hb : Quiet b) : Quiet (a ++ b) := by
  intro x hx
  rcases List.mem_append.1 hx with hx | hx
  · exact ha x hx
  · exact hb x hx

theorem quiet_data {socketID : ℕ} {messages : List Message} (h : .collectRequest ∉ messages) :
    Quiet (messages.map (.data socketID)) := by
  intro x hx
  obtain ⟨message, hmem, rfl⟩ := List.mem_map.1 hx
  refine ⟨nofun, fun id heq => h ?_⟩
  cases heq
  exact hmem

theorem quiet_batch (h : message ≠ .collectRequest) : Quiet [.batch message] := by
  intro x hx
  rw [List.mem_singleton.1 hx]
  exact ⟨fun heq => h (by cases heq; rfl), nofun⟩

theorem not_mem_packets {α : Type} (itemSize : ℕ) (entry : GlobalServerItem → Option α)
    (insert : List α → Message) (h : ∀ l, insert l ≠ .collectRequest) :
    ∀ (items : List GlobalServerItem) (buffer : List α),
      .collectRequest ∉ Sink.packets itemSize entry insert buffer items := by
  intro items
  induction items with
  | nil =>
    intro buffer
    rw [Sink.packets]
    split
    · exact List.not_mem_nil
    · exact fun hmem => h buffer (List.mem_singleton.1 hmem).symm
  | cons item items ih =>
    intro buffer
    rw [Sink.packets]
    split
    · exact fun hmem => (List.mem_cons.1 hmem).elim (fun heq => h buffer heq.symm) (ih _)
    · exact ih _

theorem quiet_lists (k : Sink) (socketID : ℕ) :
    Quiet (k.sendServerListItem socketID ++ k.sendMatchListItem socketID ++
      [.allowBatch socketID true]) := by
  refine quiet_append (quiet_append (quiet_data ?_) (quiet_data ?_)) ?_
  · have hpackets := not_mem_packets Sink.sizeofGameServer (fun i => some i.gameServer)
      .serverInsert (fun _ heq => by cases heq) k.enumServerItem []
    simp [Sink.serverListItem, hpackets]
  · exact not_mem_packets _ _ .matchInsert (fun _ heq => by cases heq) _ _
  · intro x hx
    rw [List.mem_singleton.1 hx]
    exact ⟨nofun, fun _ => nofun⟩

/-! ## Steps that leave the records as they are -/

theorem post_net (s : System) (r : Reply) (i : ℕ) :
    (s.post r).net i = (s.net i).map fun c => r.sends.foldl Connection.take c := rfl

theorem setConnection_self (s : System) (i : ℕ) (o : Option Connection) :
    (s.setConnection i o).net i = o := Function.update_self ..

theorem setConnection_of_ne (s : System) (o : Option Connection) (h : j ≠ i) :
    (s.setConnection i o).net j = s.net j := Function.update_of_ne h ..

theorem setConnection_eq_some {o : Option Connection} (h : (s.setConnection i o).net j = some d) :
    (j = i ∧ o = some d) ∨ (j ≠ i ∧ s.net j = some d) := by
  by_cases hj : j = i
  · subst hj
    rw [setConnection_self] at h
    exact .inl ⟨rfl, h⟩
  · rw [setConnection_of_ne s _ hj] at h
    exact .inr ⟨hj, h⟩

theorem rel_post (s : System) (h : Quiet r.sends) (i : ℕ) :
    Option.Rel Alike (s.net i) ((s.post r).net i) := by
  rw [post_net]
  cases s.net i with
  | none => exact .none
  | some c => exact .some (alike_foldl h c)

theorem exists_of_rel {o : Option Connection} (h : Option.Rel Alike o (some d)) :
    ∃ c, o = some c ∧ Alike c d := by
  cases h with
  | some h => exact ⟨_, rfl, h⟩

/-- The same rooms and bindings of rooms, and connections that are alike. -/
structure Steady (s s' : System) : Prop where
  rooms : Rooms s'.sink.globalInfoManager
  room : ∀ k i, (∃ g, s'.sink.globalInfoManager.room k = some (i, g)) ↔
    ∃ g, s.sink.globalInfoManager.room k = some (i, g)
  game : ∀ i, Game s' i ↔ Game s i
  service : ∀ i, Game s i →
    (s'.sink.bindParameter i).serviceID = (s.sink.bindParameter i).serviceID
  socketID : ∀ i, (s'.sink.bindParameter i).socketID = (s.sink.bindParameter i).socketID
  dead : ∀ i, s'.net i = none → (s'.sink.bindParameter i).serviceKind = .none
  collectItem : s'.sink.collectItem = s.sink.collectItem
  wait : s'.sink.waitCollectItemArray = s.sink.waitCollectItemArray
  net : ∀ i, Option.Rel Alike (s.net i) (s'.net i)

theorem Bound.steady (h : Bound s) (hs : Steady s s') : Bound s' where
  rooms := hs.rooms
  index i d hd := by
    obtain ⟨c, hc, hcd⟩ := exists_of_rel (hd ▸ hs.net i)
    rw [hcd.socketID, hs.socketID]
    exact h.index i c hc
  dead := hs.dead
  game i hi := by
    rw [hs.game] at hi
    rw [hs.service i hi]
    exact (hs.room _ i).2 (h.game i hi)
  room k i g hk := by
    obtain ⟨g', hg'⟩ := (hs.room k i).1 ⟨g, hk⟩
    obtain ⟨hi, hserve⟩ := h.room k i g' hg'
    exact ⟨(hs.game i).2 hi, (hs.service i hi).trans hserve⟩
  ready i d hd hi := by
    obtain ⟨c, hc, hcd⟩ := exists_of_rel (hd ▸ hs.net i)
    have := h.ready i c hc ((hs.game i).1 hi)
    have := hcd.recv
    omega
  distinct := by
    rw [queue, hs.collectItem, hs.wait]
    exact h.distinct
  chosen i hi := by
    rw [queue, hs.collectItem, hs.wait] at hi
    exact (hs.game i).2 (h.chosen i hi)
  asked i d hd := by
    obtain ⟨c, hc, hcd⟩ := exists_of_rel (hd ▸ hs.net i)
    rw [hcd.requests, h.asked i c hc, hs.wait]
    simp only [hs.game]
  collecting i d hd := by
    obtain ⟨c, hc, hcd⟩ := exists_of_rel (hd ▸ hs.net i)
    rw [hcd.collecting, hs.collectItem]
    exact h.collecting i c hc

theorem Steady.busy (hs : Steady s s') (h : Busy s) : Busy s' := by
  rw [Busy, hs.collectItem, hs.wait]
  exact h

/-- A connection is replaced by one that is alike. -/
theorem Bound.steady_setConnection (h : Bound s) (hc : s.net i = some c) (hcd : Alike c d) :
    Steady s (s.setConnection i (some d)) where
  rooms := h.rooms
  room _ _ := Iff.rfl
  game _ := Iff.rfl
  service _ _ := rfl
  socketID _ := rfl
  dead j hj := by
    have hne : j ≠ i := by
      rintro rfl
      exact absurd hj (by simp [setConnection_self])
    exact h.dead j (by rwa [setConnection_of_ne s _ hne] at hj)
  collectItem := rfl
  wait := rfl
  net j := by
    by_cases hj : j = i
    · subst hj
      rw [hc, setConnection_self]
      exact .some hcd
    · rw [setConnection_of_ne s _ hj]
      cases s.net j with
      | none => exact .none
      | some e => exact .some (.refl e)

/-- A reply that changes no room and no binding of one. -/
structure Keeps (k : Sink) (r : Reply) : Prop where
  rooms : Rooms r.sink.globalInfoManager
  room : ∀ l i, (∃ g, r.sink.globalInfoManager.room l = some (i, g)) ↔
    ∃ g, k.globalInfoManager.room l = some (i, g)
  bind : r.sink.bindParameter = k.bindParameter
  collectItem : r.sink.collectItem = k.collectItem
  wait : r.sink.waitCollectItemArray = k.waitCollectItemArray
  quiet : Quiet r.sends

theorem Bound.steady_post (h : Bound s) (hr : Keeps s.sink r) :
    Steady s (s.post r) where
  rooms := hr.rooms
  room := hr.room
  game i := by
    show (r.sink.bindParameter i).serviceKind = .game ↔ _
    rw [hr.bind, Game]
  service i _ := congrArg BindParameter.serviceID (congrFun hr.bind i)
  socketID i := congrArg BindParameter.socketID (congrFun hr.bind i)
  dead i hi := by
    show (r.sink.bindParameter i).serviceKind = .none
    rw [hr.bind]
    exact h.dead i (Option.map_eq_none_iff.1 hi)
  collectItem := hr.collectItem
  wait := hr.wait
  net := rel_post s hr.quiet

section Handlers

variable {n : Sink} {socketID : ℕ}

theorem keeps_self (h : Rooms n.globalInfoManager) (hquiet : Quiet sends)
    (ret : Bool) : Keeps n { sink := n, sends, ret } :=
  ⟨h, fun _ _ => Iff.rfl, rfl, rfl, rfl, hquiet⟩

theorem quiet_nil : Quiet [] := fun _ hx => absurd hx List.not_mem_nil

theorem keeps_sameRooms (h : Rooms n.globalInfoManager) {m : Manager}
    (hsame : SameRooms n.globalInfoManager m) (hquiet : Quiet sends) :
    Keeps n { sink := { n with globalInfoManager := m }, sends } :=
  ⟨hsame.rooms h, fun _ _ => by rw [hsame.room], rfl, rfl, rfl, hquiet⟩

theorem keeps_registerFailure (h : Rooms n.globalInfoManager) (describeString : String) :
    Keeps n (n.registerFailure socketID describeString) := by
  refine keeps_self h (fun x hx => ?_) true
  simp only [List.mem_cons, List.not_mem_nil, or_false] at hx
  rcases hx with rfl | rfl
  · exact ⟨nofun, fun _ => nofun⟩
  · exact ⟨nofun, fun _ => nofun⟩

theorem keeps_registerMatch (h : Rooms n.globalInfoManager) (gameMatch : GameMatch) :
    Keeps n (n.registerMatch gameMatch) := by
  rw [Sink.registerMatch]
  split
  · exact keeps_self h quiet_nil true
  · exact keeps_sameRooms h (sameRooms_setMatch _ _) (quiet_batch nofun)

theorem keeps_setServer (h : Rooms n.globalInfoManager) (serverID : ℕ)
    {f : TagGameServer → TagGameServer} (hf : ∀ g, (f g).serverID = g.serverID) {notice : Message}
    (hnotice : notice ≠ .collectRequest) : Keeps n (n.setServer serverID f notice) := by
  rw [Sink.setServer]
  split
  · exact keeps_self h quiet_nil true
  · rename_i a ha
    obtain ⟨hrooms, hroom⟩ := h.modify ha hf
    refine ⟨hrooms, fun l i => ?_, rfl, rfl, rfl, quiet_batch hnotice⟩
    rw [hroom]
    by_cases hl : l = serverID
    · subst hl
      rw [Function.update_self, room_of_lookup ha]
      simp
    · rw [Function.update_of_ne hl]

theorem keeps_ofGame (h : Rooms n.globalInfoManager) {f : ℕ → Reply}
    (hf : ∀ serverID, Keeps n (f serverID)) : Keeps n (n.ofGame socketID f) := by
  rw [Sink.ofGame]
  split
  · exact hf _
  · exact keeps_self h quiet_nil false

/-- The requests that change no room and no binding of one. -/
def Request.Plain : Request → Prop
  | .registerPlaza .. | .registerServer _ | .userFinish => False
  | _ => True

theorem keeps_read (h : Rooms n.globalInfoManager) (hr : request.Plain) :
    Keeps n (n.onEventTCPNetworkRead socketID request) := by
  cases request with
  | registerPlaza => exact hr.elim
  | registerServer => exact hr.elim
  | userFinish => exact hr.elim
  | registerMatch gameMatch => exact keeps_registerMatch h gameMatch
  | serverOnLine onLineCount androidCount =>
    refine keeps_ofGame h fun serverID => keeps_setServer h serverID ?_ ?_
    · exact fun _ => rfl
    · exact fun heq => by cases heq
  | serverModify modify =>
    refine keeps_ofGame h fun serverID => keeps_setServer h serverID ?_ ?_
    · exact fun _ => rfl
    · exact fun heq => by cases heq
  | userEnter =>
    exact keeps_ofGame h fun _ => keeps_sameRooms h (sameRooms_activeUserItem ..) quiet_nil
  | userLeave =>
    exact keeps_ofGame h fun _ => keeps_sameRooms h (sameRooms_deleteUserItem ..) quiet_nil

end Handlers

/-! ## The collection switches -/

theorem take_self (hzero : c.socketID ≠ 0) (hready : 0 < c.recvPacketCount) :
    c.take (.data c.socketID message) = c.log (.sent message) := by
  simp [Connection.take, hzero, hready]

theorem take_of_ne {socketID : ℕ} (hzero : socketID ≠ 0)
    (hne : c.socketID ≠ socketID) : c.take (.data socketID message) = c := by
  simp [Connection.take, hzero, hne]

/-- Nobody collects, and the last room that waits is asked. -/
theorem Bound.switchCollect (h : Bound s) (hnone : s.sink.collectItem = none) :
    Bound (s.post s.sink.switchCollect) ∧ Busy (s.post s.sink.switchCollect) := by
  rw [Sink.switchCollect]
  cases hlast : s.sink.waitCollectItemArray.getLast? with
  | none =>
    have hwait : s.sink.waitCollectItemArray = [] := List.getLast?_eq_none_iff.1 hlast
    refine ⟨h.steady (h.steady_post ?_), fun hne => absurd hwait hne⟩
    exact ⟨h.rooms, fun _ _ => Iff.rfl, rfl, hnone.symm, rfl, quiet_nil⟩
  | some i =>
    obtain ⟨rest, hrest⟩ := List.getLast?_eq_some_iff.1 hlast
    have hdrop : s.sink.waitCollectItemArray.dropLast = rest := by
      rw [hrest, List.dropLast_concat]
    have hqueue : queue s = rest ++ [i] := by rw [queue, hnone, hrest]; rfl
    have hnodup : (i :: rest).Nodup := by
      rw [← (List.perm_append_singleton i rest).nodup_iff, ← hqueue]
      exact h.distinct
    have hnot : i ∉ rest := (List.nodup_cons.1 hnodup).1
    have hi : Game s i := h.chosen i (by rw [hqueue]; simp)
    obtain ⟨c, hc⟩ := h.live hi
    obtain ⟨hindex, hzero, hbind⟩ := h.index i c hc
    -- The request reaches this connection and no other one.
    have hself : (s.net i).map (fun c => [Send.data (s.sink.bindParameter i).socketID
        .collectRequest].foldl Connection.take c) = some (c.log (.sent .collectRequest)) := by
      rw [hc, Option.map_some, hbind]
      exact congrArg some (take_self hzero (h.ready i c hc hi))
    have hother : ∀ j d, j ≠ i → s.net j = some d →
        [Send.data (s.sink.bindParameter i).socketID .collectRequest].foldl Connection.take d = d := by
      intro j d hj hd
      rw [hbind]
      refine take_of_ne hzero fun heq => hj ?_
      rw [← (h.index j d hd).1, heq, hindex]
    have hnet : ∀ j d, (s.net j).map (fun c => [Send.data (s.sink.bindParameter i).socketID
        .collectRequest].foldl Connection.take c) = some d →
        (j = i ∧ d = c.log (.sent .collectRequest)) ∨ (j ≠ i ∧ s.net j = some d) := by
      intro j d hd
      by_cases hj : j = i
      · subst hj
        rw [hself] at hd
        exact .inl ⟨rfl, (Option.some.inj hd).symm⟩
      · obtain ⟨e, he, rfl⟩ := Option.map_eq_some_iff.1 hd
        exact .inr ⟨hj, by rw [hother j e hj he, he]⟩
    rw [hdrop]
    refine ⟨?_, fun _ => ⟨i, rfl⟩⟩
    exact
      { rooms := h.rooms
        index := by
          intro j d hd
          rcases hnet j d hd with ⟨rfl, rfl⟩ | ⟨-, hd⟩
          · exact h.index j c hc
          · exact h.index j d hd
        dead := fun j hj => h.dead j (Option.map_eq_none_iff.1 hj)
        game := h.game
        room := h.room
        ready := by
          intro j d hd hgame
          rcases hnet j d hd with ⟨rfl, rfl⟩ | ⟨-, hd⟩
          · exact h.ready j c hc hgame
          · exact h.ready j d hd hgame
        distinct := hnodup
        chosen := by
          intro j hj
          refine h.chosen j ?_
          rw [hqueue]
          exact (List.perm_append_singleton i rest).mem_iff.2 hj
        asked := by
          intro j d hd
          rcases hnet j d hd with ⟨rfl, rfl⟩ | ⟨hj, hd⟩
          · have hzero : c.requests = 0 := by
              rw [h.asked j c hc, if_neg]
              exact fun hn => hn.2 (by rw [hrest]; simp)
            rw [requests_log_sent, hzero, if_pos rfl]
            exact (if_pos ⟨hi, hnot⟩).symm
          · rw [h.asked j d hd]
            refine if_congr (and_congr_right' (not_congr ?_)) rfl rfl
            show j ∈ s.sink.waitCollectItemArray ↔ j ∈ rest
            simp [hrest, hj]
        collecting := by
          intro j d hd
          rcases hnet j d hd with ⟨rfl, rfl⟩ | ⟨hj, hd⟩
          · rw [collecting_log]
            exact ⟨fun _ => rfl, fun _ => rfl⟩
          · rw [h.collecting j d hd, hnone]
            exact ⟨nofun, fun heq => absurd (Option.some.inj heq).symm hj⟩ }

/-! ## A room finishes -/

/-- The room that collects is done. -/
theorem Bound.finish (h : Bound s) (hc : s.net i = some c) (hi : s.sink.collectItem = some i) :
    Bound ⟨{ s.sink with collectItem := none },
      (s.setConnection i (some (c.log (.received .userFinish)))).net⟩ := by
  have hnet : ∀ j d, (s.setConnection i (some (c.log (.received .userFinish)))).net j = some d →
      (j = i ∧ d = c.log (.received .userFinish)) ∨ (j ≠ i ∧ s.net j = some d) := by
    intro j d hd
    exact (setConnection_eq_some hd).imp_left fun h => ⟨h.1, (Option.some.inj h.2).symm⟩
  have hqueue : queue s = i :: s.sink.waitCollectItemArray := by rw [queue, hi]; rfl
  exact
    { rooms := h.rooms
      index := by
        intro j d hd
        rcases hnet j d hd with ⟨rfl, rfl⟩ | ⟨-, hd⟩
        · exact h.index j c hc
        · exact h.index j d hd
      dead := by
        intro j hj
        by_cases hji : j = i
        · subst hji
          rw [setConnection_self] at hj
          cases hj
        · rw [setConnection_of_ne s _ hji] at hj
          exact h.dead j hj
      game := h.game
      room := h.room
      ready := by
        intro j d hd hgame
        rcases hnet j d hd with ⟨rfl, rfl⟩ | ⟨-, hd⟩
        · exact h.ready j c hc hgame
        · exact h.ready j d hd hgame
      distinct := by
        have hdistinct := h.distinct
        rw [hqueue] at hdistinct
        exact (List.nodup_cons.1 hdistinct).2
      chosen := fun j hj => h.chosen j (by rw [hqueue]; exact List.mem_cons_of_mem _ hj)
      asked := by
        intro j d hd
        rcases hnet j d hd with ⟨rfl, rfl⟩ | ⟨-, hd⟩
        · rw [requests_log_received]
          exact h.asked j c hc
        · exact h.asked j d hd
      collecting := by
        intro j d hd
        rcases hnet j d hd with ⟨rfl, rfl⟩ | ⟨hj, hd⟩
        · rw [collecting_log]
          exact ⟨nofun, nofun⟩
        · rw [h.collecting j d hd, hi]
          exact ⟨fun heq => absurd (Option.some.inj heq).symm hj, nofun⟩ }

/-! ## A connection comes -/

theorem setBind_self (n : Sink) (i : ℕ) (f : BindParameter → BindParameter) :
    (n.setBind i f).bindParameter i = f (n.bindParameter i) := Function.update_self ..

theorem setBind_of_ne (n : Sink) (f : BindParameter → BindParameter) (h : j ≠ i) :
    (n.setBind i f).bindParameter j = n.bindParameter j := Function.update_of_ne h ..

theorem enterServer_bind_self (n : Sink) (i : ℕ) (register : RegisterServer) :
    (n.enterServer i register).bindParameter i =
      { n.bindParameter i with serviceID := register.serverID, serviceKind := .game } :=
  Function.update_self i _ n.bindParameter

theorem enterServer_bind_of_ne (n : Sink) (register : RegisterServer) (h : j ≠ i) :
    (n.enterServer i register).bindParameter j = n.bindParameter j :=
  Function.update_of_ne h _ n.bindParameter

/-- A new connection at a free index. -/
theorem Bound.accept (h : Bound s) {f : BindParameter → BindParameter} (hfree : s.net i = none)
    (hindex : loWord c.socketID = i) (hzero : c.socketID ≠ 0)
    (hsocket : ∀ p, (f p).socketID = c.socketID) (hkind : ∀ p, (f p).serviceKind = p.serviceKind)
    (hasked : c.requests = 0) (hcollecting : c.collecting = false) :
    Bound ⟨s.sink.setBind i f, (s.setConnection i (some c)).net⟩ := by
  have hdead := h.dead i hfree
  have hnot : ¬Game s i := fun hgame => absurd (hgame.symm.trans hdead) (by decide)
  -- The binding is new, but it is not one of a room.
  have hbind : ∀ j, ((s.sink.setBind i f).bindParameter j).serviceKind =
      (s.sink.bindParameter j).serviceKind := by
    intro j
    by_cases hj : j = i
    · rw [hj, setBind_self, hkind]
    · rw [setBind_of_ne s.sink f hj]
  have hgame : ∀ j, Game ⟨s.sink.setBind i f, (s.setConnection i (some c)).net⟩ j ↔ Game s j := by
    intro j
    rw [Game, hbind, Game]
  have hne : ∀ j, Game s j → j ≠ i := fun j hj heq => hnot (heq ▸ hj)
  exact
    { rooms := h.rooms
      index := by
        intro j d hd
        rcases setConnection_eq_some hd with ⟨hj, hd⟩ | ⟨hj, hd⟩
        · cases hd
          rw [hj, setBind_self, hsocket]
          exact ⟨hindex, hzero, rfl⟩
        · rw [setBind_of_ne s.sink f hj]
          exact h.index j d hd
      dead := by
        intro j hj
        rw [hbind]
        by_cases hji : j = i
        · exact hji ▸ hdead
        · exact h.dead j (by rwa [← setConnection_of_ne s (some c) hji])
      game := by
        intro j hj
        have hj := (hgame j).1 hj
        rw [setBind_of_ne s.sink f (hne j hj)]
        exact h.game j hj
      room := by
        intro k j g hk
        obtain ⟨hj, hserve⟩ := h.room k j g hk
        rw [setBind_of_ne s.sink f (hne j hj)]
        exact ⟨(hgame j).2 hj, hserve⟩
      ready := by
        intro j d hd hj
        have hj := (hgame j).1 hj
        rcases setConnection_eq_some hd with ⟨hji, -⟩ | ⟨-, hd⟩
        · exact absurd hji (hne j hj)
        · exact h.ready j d hd hj
      distinct := h.distinct
      chosen := fun j hj => (hgame j).2 (h.chosen j hj)
      asked := by
        intro j d hd
        simp only [hgame]
        rcases setConnection_eq_some hd with ⟨hji, hd⟩ | ⟨-, hd⟩
        · cases hd
          rw [hasked, hji, if_neg fun hn => hnot hn.1]
        · exact h.asked j d hd
      collecting := by
        intro j d hd
        rcases setConnection_eq_some hd with ⟨hji, hd⟩ | ⟨-, hd⟩
        · cases hd
          rw [hcollecting]
          refine ⟨nofun, fun hitem => absurd hji (hne j (h.chosen j ?_))⟩
          rw [queue, show s.sink.collectItem = some j from hitem]
          exact List.mem_cons_self
        · exact h.collecting j d hd }

/-! ## A room registers -/

theorem Bound.not_queued (h : Bound s) (hi : ¬Game s i) : i ∉ queue s := fun hq => hi (h.chosen i hq)

/-- A connection that is no room registers one, which waits. -/
theorem Bound.enter (h : Bound s) {n : Sink} {gameServer : TagGameServer}
    {ret : Bool} (hc : s.net i = some c) (hready : 0 < c.recvPacketCount) (hi : ¬Game s i)
    (hnew : s.sink.globalInfoManager.mapServerID.lookup gameServer.serverID = none)
    (hself : n.bindParameter i =
      { s.sink.bindParameter i with serviceID := gameServer.serverID, serviceKind := .game })
    (hother : ∀ j, j ≠ i → n.bindParameter j = s.sink.bindParameter j)
    (hmanager : n.globalInfoManager =
      (s.sink.globalInfoManager.activeServerItem i gameServer true).2)
    (hitem : n.collectItem = s.sink.collectItem)
    (hwait : n.waitCollectItemArray = s.sink.waitCollectItemArray ++ [i]) (hquiet : Quiet sends) :
    Bound (s.post ⟨n, sends, ret⟩) := by
  obtain ⟨hrooms, hroom⟩ := h.rooms.activeServerItem i hnew
  rw [← hmanager] at hrooms hroom
  have hgame : ∀ j, Game (s.post ⟨n, sends, ret⟩) j ↔ j = i ∨ Game s j := by
    intro j
    show (n.bindParameter j).serviceKind = .game ↔ _
    by_cases hj : j = i
    · subst hj
      rw [hself]
      exact ⟨fun _ => .inl rfl, fun _ => rfl⟩
    · rw [hother j hj]
      exact ⟨.inr, fun hor => hor.resolve_left hj⟩
  have hqueue : queue (s.post ⟨n, sends, ret⟩) = queue s ++ [i] := by
    rw [queue, queue, List.append_assoc, ← hwait, ← hitem]
    rfl
  have hnet := rel_post s (r := ⟨n, sends, ret⟩) hquiet
  exact
    { rooms := hrooms
      index := by
        intro j d hd
        obtain ⟨e, he, hed⟩ := exists_of_rel (hd ▸ hnet j)
        rw [hed.socketID]
        obtain ⟨hindex, hzero, hbind⟩ := h.index j e he
        refine ⟨hindex, hzero, ?_⟩
        show (n.bindParameter j).socketID = e.socketID
        by_cases hj : j = i
        · subst hj
          rw [hself]
          exact hbind
        · rw [hother j hj]
          exact hbind
      dead := by
        intro j hj
        have hnone : s.net j = none := Option.map_eq_none_iff.1 hj
        have hji : j ≠ i := by
          rintro rfl
          rw [hc] at hnone
          cases hnone
        show (n.bindParameter j).serviceKind = .none
        rw [hother j hji]
        exact h.dead j hnone
      game := by
        intro j hj
        show ∃ g, n.globalInfoManager.room (n.bindParameter j).serviceID = some (j, g)
        rw [hroom]
        by_cases hji : j = i
        · subst hji
          rw [hself]
          exact ⟨_, Function.update_self ..⟩
        · obtain ⟨g, hg⟩ := h.game j (((hgame j).1 hj).resolve_left hji)
          refine ⟨g, ?_⟩
          rw [hother j hji, Function.update_of_ne, hg]
          intro heq
          rw [heq, room_eq_none.2 hnew] at hg
          cases hg
      room := by
        intro k j g hk
        have hk' : (Function.update s.sink.globalInfoManager.room gameServer.serverID
            (some (i, gameServer))) k = some (j, g) := hroom ▸ hk
        by_cases hkr : k = gameServer.serverID
        · rw [hkr, Function.update_self] at hk'
          cases hk'
          refine ⟨(hgame i).2 (.inl rfl), ?_⟩
          show (n.bindParameter i).serviceID = k
          rw [hself, hkr]
        · rw [Function.update_of_ne hkr] at hk'
          obtain ⟨hj, hserve⟩ := h.room k j g hk'
          have hji : j ≠ i := fun heq => hi (heq ▸ hj)
          refine ⟨(hgame j).2 (.inr hj), ?_⟩
          show (n.bindParameter j).serviceID = k
          rw [hother j hji, hserve]
      ready := by
        intro j d hd hj
        obtain ⟨e, he, hed⟩ := exists_of_rel (hd ▸ hnet j)
        have hle := hed.recv
        rcases (hgame j).1 hj with rfl | hj
        · rw [hc] at he
          cases he
          omega
        · have := h.ready j e he hj
          omega
      distinct := by
        rw [hqueue, (List.perm_append_singleton i (queue s)).nodup_iff]
        exact List.nodup_cons.2 ⟨h.not_queued hi, h.distinct⟩
      chosen := by
        intro j hj
        rw [hqueue] at hj
        rcases List.mem_append.1 hj with hj | hj
        · exact (hgame j).2 (.inr (h.chosen j hj))
        · exact (hgame j).2 (.inl (List.mem_singleton.1 hj))
      asked := by
        intro j d hd
        obtain ⟨e, he, hed⟩ := exists_of_rel (hd ▸ hnet j)
        rw [hed.requests, h.asked j e he]
        have hmem : j ∈ (s.post ⟨n, sends, ret⟩).sink.waitCollectItemArray ↔
            j ∈ s.sink.waitCollectItemArray ∨ j = i := by
          show j ∈ n.waitCollectItemArray ↔ _
          rw [hwait]
          exact List.mem_append.trans (or_congr_right List.mem_singleton)
        simp only [hgame, hmem]
        by_cases hj : j = i
        · subst hj
          rw [if_neg fun hn => hi hn.1, if_neg fun hn => hn.2 (.inr rfl)]
        · simp only [hj, false_or, or_false]
      collecting := by
        intro j d hd
        obtain ⟨e, he, hed⟩ := exists_of_rel (hd ▸ hnet j)
        show _ ↔ n.collectItem = some j
        rw [hed.collecting, hitem]
        exact h.collecting j e he }

/-! ## A connection goes -/

/-- A connection goes, and with it its room, its place in the queue and
its binding. -/
theorem Bound.leave (h : Bound s) {m : Manager} (hrooms : Rooms m)
    (hroom : ∀ k j, (∃ g, m.room k = some (j, g)) ↔
      j ≠ i ∧ ∃ g, s.sink.globalInfoManager.room k = some (j, g)) :
    Bound ⟨{ s.sink with
        bindParameter := Function.update s.sink.bindParameter i {}
        globalInfoManager := m
        collectItem := if s.sink.collectItem = some i then none else s.sink.collectItem
        waitCollectItemArray := s.sink.waitCollectItemArray.erase i },
      (s.setConnection i none).net⟩ := by
  have hother : ∀ j, j ≠ i → Function.update s.sink.bindParameter i {} j = s.sink.bindParameter j :=
    fun j hj => Function.update_of_ne hj ..
  have hself : Function.update s.sink.bindParameter i {} i = {} := Function.update_self ..
  have hgame : ∀ j, (Function.update s.sink.bindParameter i {} j).serviceKind = .game ↔
      j ≠ i ∧ Game s j := by
    intro j
    by_cases hj : j = i
    · subst hj
      rw [hself]
      exact ⟨nofun, fun hn => absurd rfl hn.1⟩
    · rw [hother j hj]
      exact ⟨fun hn => ⟨hj, hn⟩, fun hn => hn.2⟩
  have hnet : ∀ j d, (s.setConnection i none).net j = some d → j ≠ i ∧ s.net j = some d := by
    intro j d hd
    exact (setConnection_eq_some hd).resolve_left fun hn => nomatch hn.2
  have hwait : s.sink.waitCollectItemArray.Nodup := (List.nodup_append.1 h.distinct).2.1
  have hmem : ∀ j, j ∈ s.sink.waitCollectItemArray.erase i ↔
      j ≠ i ∧ j ∈ s.sink.waitCollectItemArray := fun j => hwait.mem_erase_iff
  have hitem : ∀ j, (if s.sink.collectItem = some i then none else s.sink.collectItem) = some j ↔
      j ≠ i ∧ s.sink.collectItem = some j := by
    intro j
    by_cases hci : s.sink.collectItem = some i
    · rw [if_pos hci, hci]
      exact ⟨nofun, fun hn => absurd (Option.some.inj hn.2).symm hn.1⟩
    · rw [if_neg hci]
      exact ⟨fun hj => ⟨fun heq => hci (heq ▸ hj), hj⟩, fun hn => hn.2⟩
  exact
    { rooms := hrooms
      index := by
        intro j d hd
        obtain ⟨hj, hd⟩ := hnet j d hd
        show _ ∧ _ ∧ (Function.update s.sink.bindParameter i {} j).socketID = d.socketID
        rw [hother j hj]
        exact h.index j d hd
      dead := by
        intro j hd
        show (Function.update s.sink.bindParameter i {} j).serviceKind = .none
        by_cases hj : j = i
        · subst hj
          rw [hself]
        · rw [hother j hj]
          exact h.dead j (by rwa [← setConnection_of_ne s none hj])
      game := by
        intro j hj
        obtain ⟨hji, hgj⟩ := (hgame j).1 hj
        show ∃ g, m.room (Function.update s.sink.bindParameter i {} j).serviceID = some (j, g)
        rw [hother j hji]
        exact (hroom _ j).2 ⟨hji, h.game j hgj⟩
      room := by
        intro k j g hk
        obtain ⟨hji, g', hg'⟩ := (hroom k j).1 ⟨g, hk⟩
        obtain ⟨hgj, hserve⟩ := h.room k j g' hg'
        refine ⟨(hgame j).2 ⟨hji, hgj⟩, ?_⟩
        show (Function.update s.sink.bindParameter i {} j).serviceID = k
        rw [hother j hji, hserve]
      ready := by
        intro j d hd hj
        exact h.ready j d (hnet j d hd).2 ((hgame j).1 hj).2
      distinct := by
        refine List.nodup_append.2 ⟨?_, hwait.erase i, fun a ha b hb heq => ?_⟩
        · exact Option.toList_nodup _
        · subst heq
          have hcollect := (hitem a).1 (Option.mem_toList.1 ha)
          exact h.not_waiting hcollect.2 ((hmem a).1 hb).2
      chosen := by
        intro j hj
        refine (hgame j).2 ?_
        rcases List.mem_append.1 hj with hj | hj
        · obtain ⟨hji, hcollect⟩ := (hitem j).1 (Option.mem_toList.1 hj)
          exact ⟨hji, h.chosen j (by rw [queue, hcollect]; exact List.mem_cons_self)⟩
        · obtain ⟨hji, hw⟩ := (hmem j).1 hj
          exact ⟨hji, h.chosen j (List.mem_append_right _ hw)⟩
      asked := by
        intro j d hd
        obtain ⟨hji, hd⟩ := hnet j d hd
        rw [h.asked j d hd]
        refine if_congr (and_congr ?_ (not_congr ?_)) rfl rfl
        · exact ⟨fun hgj => (hgame j).2 ⟨hji, hgj⟩, fun hgj => ((hgame j).1 hgj).2⟩
        · exact ⟨fun hw => (hmem j).2 ⟨hji, hw⟩, fun hw => ((hmem j).1 hw).2⟩
      collecting := by
        intro j d hd
        obtain ⟨hji, hd⟩ := hnet j d hd
        rw [h.collecting j d hd]
        exact ⟨fun hcj => (hitem j).2 ⟨hji, hcj⟩, fun hcj => ((hitem j).1 hcj).2⟩ }

/-! ## Steps -/

theorem post_post (s : System) (n n' : Sink) (sends sends' : List Send) (ret ret' ret'' : Bool) :
    (s.post ⟨n, sends, ret⟩).post ⟨n', sends', ret'⟩ = s.post ⟨n', sends ++ sends', ret''⟩ := by
  rw [System.post, System.post, System.post]
  congr 1
  funext i
  simp only [Option.map_map]
  congr 1
  funext c
  exact List.foldl_append.symm

/-- The invariant of every run. -/
def Orderly (s : System) : Prop := Bound s ∧ Busy s

theorem Orderly.steady (h : Orderly s) (hs : Steady s s') : Orderly s' :=
  ⟨h.1.steady hs, hs.busy h.2⟩

theorem Orderly.keeps (h : Orderly s) (hr : Keeps s.sink r) : Orderly (s.post r) :=
  h.steady (h.1.steady_post hr)

/-- A plaza at a connection that is no room. -/
theorem Orderly.plaza (h : Orderly s) (hc : s.net i = some c) (hi : ¬Game s i) {n : Sink}
    (hsame : SameRooms s.sink.globalInfoManager n.globalInfoManager) (hself : n.bindParameter i =
      { s.sink.bindParameter i with serviceID := i, serviceKind := .plaza })
    (hother : ∀ j, j ≠ i → n.bindParameter j = s.sink.bindParameter j)
    (hitem : n.collectItem = s.sink.collectItem)
    (hwait : n.waitCollectItemArray = s.sink.waitCollectItemArray) (hquiet : Quiet sends) :
    Orderly (s.post { sink := n, sends }) := by
  refine h.steady ?_
  exact
    { rooms := hsame.rooms h.1.rooms
      room := fun k j => by
        show (∃ g, n.globalInfoManager.room k = some (j, g)) ↔ _
        rw [hsame.room]
      game := by
        intro j
        show (n.bindParameter j).serviceKind = .game ↔ _
        by_cases hj : j = i
        · subst hj
          rw [hself]
          exact ⟨nofun, fun hn => absurd hn hi⟩
        · rw [hother j hj, Game]
      service := fun j hj =>
        congrArg BindParameter.serviceID (hother j fun heq => hi (heq ▸ hj))
      socketID := by
        intro j
        show (n.bindParameter j).socketID = _
        by_cases hj : j = i
        · subst hj
          rw [hself]
        · rw [hother j hj]
      dead := by
        intro j hj
        have hnone : s.net j = none := Option.map_eq_none_iff.1 hj
        show (n.bindParameter j).serviceKind = .none
        rw [hother j (by rintro rfl; rw [hc] at hnone; cases hnone)]
        exact h.1.dead j hnone
      collectItem := hitem
      wait := hwait
      net := rel_post s hquiet }

/-- A room at a connection that is none. -/
theorem Orderly.registerServer (h : Orderly s) {register : RegisterServer} (hc : s.net i = some c)
    (hready : 0 < c.recvPacketCount) (hi : ¬Game s i)
    (hnew : s.sink.globalInfoManager.searchServerItem register.serverID = none) :
    Orderly (s.post (s.sink.registerServer c.socketID register)) := by
  obtain ⟨hindex, -, hbind⟩ := h.1.index i c hc
  rw [Sink.registerServer, hnew, if_neg (by simp), hindex]
  dsimp only
  generalize hn : s.sink.enterServer i register = n
  have hself : n.bindParameter i =
      { s.sink.bindParameter i with serviceID := register.serverID, serviceKind := .game } := by
    rw [← hn]
    exact enterServer_bind_self s.sink i register
  have hother : ∀ j, j ≠ i → n.bindParameter j = s.sink.bindParameter j := by
    intro j hj
    rw [← hn]
    exact enterServer_bind_of_ne s.sink register hj
  have hmanager : n.globalInfoManager =
      (s.sink.globalInfoManager.activeServerItem i register.gameServer true).2 := by rw [← hn]; rfl
  have hitem : n.collectItem = s.sink.collectItem := by rw [← hn]; rfl
  have hwait : n.waitCollectItemArray = s.sink.waitCollectItemArray := by rw [← hn]; rfl
  have hquiet : Quiet (.batch (.serverInsert [register.gameServer]) :: n.sendServerListItem c.socketID
      ++ n.sendMatchListItem c.socketID ++ [.allowBatch c.socketID true]) := by
    rw [List.cons_append, List.cons_append]
    exact quiet_append (quiet_batch fun heq => by cases heq) (quiet_lists n c.socketID)
  generalize Send.batch (.serverInsert [register.gameServer]) :: n.sendServerListItem c.socketID
    ++ n.sendMatchListItem c.socketID ++ [.allowBatch c.socketID true] = sends at hquiet
  have hlookup : s.sink.globalInfoManager.mapServerID.lookup register.gameServer.serverID = none :=
    hnew
  have henter : Bound (s.post
      ⟨{ n with waitCollectItemArray := n.waitCollectItemArray ++ [i] }, sends, true⟩) :=
    h.1.enter hc hready hi hlookup hself hother hmanager hitem (by rw [hwait]) hquiet
  by_cases hnone : n.collectItem = none
  · -- Nobody collects: the room that has just come waits no longer.
    have hswitch := henter.switchCollect hnone
    rw [if_pos hnone]
    have heq : (s.post ⟨{ n with waitCollectItemArray := n.waitCollectItemArray ++ [i] }, sends,
        true⟩).sink.switchCollect = ⟨{ n with collectItem := some i },
          [.data c.socketID .collectRequest], true⟩ := by
      have hsocket : (n.bindParameter i).socketID = c.socketID := by rw [hself, ← hbind]
      rw [Sink.switchCollect]
      simp [System.post, hsocket]
    rw [heq, post_post _ _ _ _ _ true true true] at hswitch
    exact hswitch
  · rw [if_neg hnone]
    exact ⟨henter, fun _ => Option.ne_none_iff_exists'.1 hnone⟩

theorem Orderly.userFinish (h : Orderly s) (hc : s.net i = some c)
    (hi : s.sink.collectItem = some i) :
    Orderly ((s.setConnection i (some (c.log (.received .userFinish)))).post
      s.sink.switchCollect) :=
  (h.1.finish hc hi).switchCollect rfl

/-- What is left when a connection goes. -/
def departed (s : System) (i : ℕ) (m : Manager) : System :=
  ⟨{ s.sink with
      bindParameter := Function.update s.sink.bindParameter i {}
      globalInfoManager := m
      collectItem := if s.sink.collectItem = some i then none else s.sink.collectItem
      waitCollectItemArray := s.sink.waitCollectItemArray.erase i },
    (s.setConnection i none).net⟩

/-- The connection of a room goes. -/
theorem Orderly.shutGame (h : Orderly s) (hc : s.net i = some c) (hi : Game s i) :
    Orderly ((s.setConnection i none).post (s.sink.onEventTCPNetworkShut c.socketID)) := by
  obtain ⟨hindex, -, -⟩ := h.1.index i c hc
  have hkind : (s.sink.bindParameter i).serviceKind = .game := hi
  obtain ⟨g, hg⟩ := h.1.game i hi
  rw [Sink.onEventTCPNetworkShut, hindex]
  simp only [hkind]
  generalize hserve : (s.sink.bindParameter i).serviceID = serviceID at hg
  obtain ⟨hrooms, hroom⟩ := h.1.rooms.deleteServerItem serviceID
  have hleave : Bound (departed s i (s.sink.globalInfoManager.deleteServerItem serviceID).2) := by
    refine h.1.leave hrooms fun k j => ?_
    rw [hroom]
    by_cases hk : k = serviceID
    · subst hk
      rw [Function.update_self, hg]
      exact ⟨fun hn => absurd hn.choose_spec nofun,
        fun hn => absurd (congrArg Prod.fst (Option.some.inj hn.2.choose_spec)).symm hn.1⟩
    · rw [Function.update_of_ne hk]
      refine ⟨fun hj => ⟨?_, hj⟩, fun hj => hj.2⟩
      rintro rfl
      obtain ⟨g', hg'⟩ := hj
      exact hk ((h.1.room k j g' hg').2.symm.trans hserve)
  rw [Sink.leaveCollect]
  by_cases hitem : s.sink.collectItem = some i
  · -- The room that goes was collecting.
    have hnot := h.1.not_waiting hitem
    have hswitch := hleave.switchCollect (if_pos hitem)
    rw [if_pos hitem]
    have hpost : (departed s i (s.sink.globalInfoManager.deleteServerItem serviceID).2).post
        (departed s i (s.sink.globalInfoManager.deleteServerItem serviceID).2).sink.switchCollect =
        (s.setConnection i none).post ⟨{ s.sink.switchCollect.sink with
          bindParameter := Function.update s.sink.bindParameter i {}
          globalInfoManager := (s.sink.globalInfoManager.deleteServerItem serviceID).2 },
          s.sink.switchCollect.sends, true⟩ := by
      simp only [Sink.switchCollect, departed, List.erase_of_not_mem hnot]
      cases hlast : s.sink.waitCollectItemArray.getLast? with
      | none =>
        have hwait : s.sink.waitCollectItemArray = [] := List.getLast?_eq_none_iff.1 hlast
        simp only [System.post, System.setConnection, hwait]
      | some j =>
        have hji : j ≠ i := fun heq => hnot (heq ▸ List.mem_of_getLast? hlast)
        simp only [System.post, System.setConnection, Function.update_of_ne hji]
    rw [hpost] at hswitch
    have hquiet : Quiet [.batch (.serverRemove serviceID)] := quiet_batch nofun
    have hkeeps := Orderly.keeps hswitch (keeps_self hswitch.1.rooms hquiet false)
    rw [post_post _ _ _ _ _ _ _ false] at hkeeps
    have hmanager : s.sink.switchCollect.sink.globalInfoManager = s.sink.globalInfoManager := by
      rw [Sink.switchCollect]
      split <;> rfl
    have hbind : s.sink.switchCollect.sink.bindParameter = s.sink.bindParameter := by
      rw [Sink.switchCollect]
      split <;> rfl
    simp only [Sink.setBind, hmanager, hbind]
    exact hkeeps
  · have hquiet : Quiet [.batch (.serverRemove serviceID)] := quiet_batch nofun
    have hbusy : Busy (departed s i (s.sink.globalInfoManager.deleteServerItem serviceID).2) := by
      intro hne
      rw [departed, if_neg hitem]
      refine h.2 fun hnil => hne ?_
      rw [departed, hnil]
      rfl
    have hkeeps := Orderly.keeps ⟨hleave, hbusy⟩ (keeps_self hleave.rooms hquiet false)
    rw [departed, if_neg hitem] at hkeeps
    rw [if_neg hitem]
    exact hkeeps

/-- A connection goes that is no room. -/
theorem Orderly.shutOther (h : Orderly s) (hc : s.net i = some c) (hi : ¬Game s i) :
    Orderly ((s.setConnection i none).post (s.sink.onEventTCPNetworkShut c.socketID)) := by
  obtain ⟨hindex, -, -⟩ := h.1.index i c hc
  have hnot := h.1.not_queued hi
  have hitem : s.sink.collectItem ≠ some i := by
    intro heq
    exact hnot (by rw [queue, heq]; exact List.mem_cons_self)
  have hwait : s.sink.waitCollectItemArray.erase i = s.sink.waitCollectItemArray :=
    List.erase_of_not_mem fun hmem => hnot (List.mem_append_right _ hmem)
  have hleave : ∀ m, SameRooms s.sink.globalInfoManager m → Orderly (departed s i m) := by
    intro m hsame
    refine ⟨h.1.leave (hsame.rooms h.1.rooms) fun k j => ?_, ?_⟩
    · rw [hsame.room]
      refine ⟨fun hj => ⟨?_, hj⟩, fun hj => hj.2⟩
      rintro rfl
      obtain ⟨g, hg⟩ := hj
      exact hi (h.1.room k j g hg).1
    · rw [Busy, departed, if_neg hitem, hwait]
      exact h.2
  have hpost : ∀ m, (s.setConnection i none).post
      ⟨{ s.sink with globalInfoManager := m }.setBind i fun _ => {}, [], false⟩ = departed s i m := by
    intro m
    rw [departed, if_neg hitem, hwait, System.post, Sink.setBind]
    congr 1
    funext j
    exact Option.map_id'
  rw [Sink.onEventTCPNetworkShut, hindex]
  cases hkind : (s.sink.bindParameter i).serviceKind with
  | game => exact absurd hkind hi
  | plaza =>
    rw [hpost]
    exact hleave _ (sameRooms_deletePlazaItem ..)
  | none =>
    rw [hpost s.sink.globalInfoManager]
    exact hleave _ (.refl _)

/-! ## Runs -/

/-- The engine hands out no socket 0, which stands for all connections: it
is the index 0 after as many connections as a round number counts. -/
def NonzeroSocket (_ : System) : NetworkEvent → Prop
  | .accept socketID _ _ => socketID ≠ 0
  | _ => True

/-- A connection that is bound to a room registers nothing more: such a
registration is refused. -/
def RegistersOnce (s : System) : NetworkEvent → Prop
  | .read i (.registerServer register) => Game s i →
      (s.sink.globalInfoManager.searchServerItem register.serverID).isSome = true
  | .read i (.registerPlaza serverName serverAddr) => Game s i → serverName = "" ∨ serverAddr = ""
  | _ => True

def RegisterOk (s : System) (e : NetworkEvent) : Prop := NonzeroSocket s e ∧ RegistersOnce s e

theorem Orderly.accept (h : Orderly s) {socketID clientAddr activeTime : ℕ}
    (hok : socketID ≠ 0) :
    Orderly (System.step s (.accept socketID clientAddr activeTime)).1 := by
  rw [System.step]
  split
  · rename_i hfree
    rw [Sink.onEventTCPNetworkBind] at hfree ⊢
    by_cases hmax : s.sink.maxConnect ≤ loWord socketID
    · rw [if_pos hmax] at hfree
      exact absurd hfree.2 nofun
    · rw [if_neg hmax]
      have haccept := h.1.accept (c := { socketID })
        (f := fun p => { p with socketID, clientAddr, activeTime })
        (Option.isNone_iff_eq_none.1 hfree.1) rfl hok (fun _ => rfl) (fun _ => rfl) rfl rfl
      have hpost : ∀ n, (s.setConnection (loWord socketID) (some { socketID })).post ⟨n, [], true⟩ =
          ⟨n, (s.setConnection (loWord socketID) (some { socketID })).net⟩ := by
        intro n
        rw [System.post]
        congr 1
        funext j
        exact Option.map_id'
      rw [hpost]
      exact ⟨haccept, h.2⟩
  · exact h

theorem Orderly.read (h : Orderly s) (hc : s.net i = some c)
    (hready : 0 < c.recvPacketCount) (hok : RegistersOnce s (.read i request)) :
    Orderly ((s.setConnection i (some (c.log (.received request)))).post
      (s.sink.onEventTCPNetworkRead c.socketID request)) := by
  obtain ⟨hindex, -, -⟩ := h.1.index i c hc
  -- Where the request is not the end of the collection, it is only logged.
  have hlog : (request = .userFinish → c.collecting = false) →
      Orderly (s.setConnection i (some (c.log (.received request)))) := fun hfinish =>
    h.steady (h.1.steady_setConnection hc (alike_log_received c hfinish))
  have hself : (s.setConnection i (some (c.log (.received request)))).net i =
      some (c.log (.received request)) := setConnection_self ..
  cases request with
  | registerPlaza serverName serverAddr =>
    have hs := hlog nofun
    rw [Sink.onEventTCPNetworkRead, Sink.registerPlaza, hindex]
    by_cases hempty : serverName = "" ∨ serverAddr = ""
    · rw [if_pos hempty]
      exact hs.keeps (keeps_registerFailure h.1.rooms _)
    · rw [if_neg hempty]
      let f : BindParameter → BindParameter := fun p =>
        { p with serviceID := i, serviceKind := .plaza }
      refine hs.plaza hself (fun hi => hempty (hok hi)) ?_ (setBind_self s.sink i f)
        (fun j hj => setBind_of_ne s.sink f hj) rfl rfl (quiet_lists _ _)
      exact sameRooms_activePlazaItem s.sink.globalInfoManager ..
  | registerServer register =>
    have hs := hlog nofun
    cases hnew : s.sink.globalInfoManager.searchServerItem register.serverID with
    | none =>
      have hi : ¬Game s i := fun hi => by
        have hsome := hok hi
        rw [hnew] at hsome
        cases hsome
      have hregister := hs.registerServer hself hready hi hnew
      exact hregister
    | some a =>
      rw [Sink.onEventTCPNetworkRead, Sink.registerServer, hnew,
        if_pos Option.isSome_some]
      exact hs.keeps (keeps_registerFailure h.1.rooms _)
  | userFinish =>
    rw [Sink.onEventTCPNetworkRead, Sink.userFinish, hindex]
    by_cases hitem : s.sink.collectItem = some i
    · have hi : Game s i := h.1.chosen i (by rw [queue, hitem]; exact List.mem_cons_self)
      rw [if_pos ⟨hitem, hi⟩]
      exact h.userFinish hc hitem
    · have hfalse : c.collecting = false :=
        Bool.eq_false_iff.2 fun htrue => hitem ((h.1.collecting i c hc).1 htrue)
      rw [if_neg fun hn => hitem hn.1]
      exact (hlog fun _ => hfalse).keeps (keeps_self h.1.rooms quiet_nil false)
  | registerMatch => exact (hlog nofun).keeps (keeps_read h.1.rooms trivial)
  | serverOnLine => exact (hlog nofun).keeps (keeps_read h.1.rooms trivial)
  | serverModify => exact (hlog nofun).keeps (keeps_read h.1.rooms trivial)
  | userEnter => exact (hlog nofun).keeps (keeps_read h.1.rooms trivial)
  | userLeave => exact (hlog nofun).keeps (keeps_read h.1.rooms trivial)

theorem orderly_step (s : System) (e : NetworkEvent) (h : Orderly s) (hok : RegisterOk s e) :
    Orderly (System.step s e).1 := by
  cases e with
  | accept => exact h.accept hok.1
  | packet i =>
    rw [System.step]
    cases hc : s.net i with
    | none => exact h
    | some c =>
      refine h.steady (h.1.steady_setConnection hc ?_)
      exact ⟨rfl, Nat.le_succ _, rfl, rfl⟩
  | read i request =>
    rw [System.step]
    cases hc : s.net i with
    | none => exact h
    | some c =>
      dsimp only
      by_cases hready : c.recvPacketCount = 0
      · rw [if_pos hready]
        exact h
      · rw [if_neg hready]
        exact h.read hc (Nat.pos_of_ne_zero hready) hok.2
  | shut i =>
    rw [System.step]
    cases hc : s.net i with
    | none => exact h
    | some c =>
      by_cases hi : Game s i
      · exact h.shutGame hc hi
      · exact h.shutOther hc hi

/-- A room that registers again is in the directory under a connection
that is bound to something else. -/
theorem registersOnce_of_registered (s : System) (e : NetworkEvent) (h : Orderly s)
    (hgood : Registered (System.step s e).1) : RegistersOnce s e := by
  cases e with
  | accept => trivial
  | packet => trivial
  | shut => trivial
  | read i request =>
    -- The room of the connection is still listed there.
    have hlost : ∀ {t : System}, Registered t → Game s i →
        t.sink.globalInfoManager.room (s.sink.bindParameter i).serviceID =
          s.sink.globalInfoManager.room (s.sink.bindParameter i).serviceID →
        Game t i ∧ (t.sink.bindParameter i).serviceID = (s.sink.bindParameter i).serviceID := by
      intro t ht hi hroom
      obtain ⟨g, hg⟩ := h.1.game i hi
      rw [hg] at hroom
      have hbound := ((ht.room _ i g hroom).2 i).2 rfl
      exact ⟨hbound.1.2, hbound.2⟩
    cases request with
    | registerPlaza serverName serverAddr =>
      intro hi
      by_contra hempty
      obtain ⟨c, hc⟩ := h.1.live hi
      obtain ⟨hindex, -, -⟩ := h.1.index i c hc
      have hready := h.1.ready i c hc hi
      rw [System.step, hc] at hgood
      simp only [Nat.pos_iff_ne_zero.1 hready, if_false, Sink.onEventTCPNetworkRead,
        Sink.registerPlaza, if_neg hempty, hindex] at hgood
      have hroom := (sameRooms_activePlazaItem s.sink.globalInfoManager i
        { plazaID := i, serverName, serverAddr } true).room
      obtain ⟨hgame, -⟩ := hlost hgood hi (congrFun hroom _)
      rw [Game] at hgame
      simp only [System.post, setBind_self] at hgame
      cases hgame
    | registerServer register =>
      intro hi
      by_contra hsome
      obtain ⟨c, hc⟩ := h.1.live hi
      obtain ⟨hindex, -, -⟩ := h.1.index i c hc
      have hready := h.1.ready i c hc hi
      have hnone : s.sink.globalInfoManager.searchServerItem register.serverID = none :=
        Option.not_isSome_iff_eq_none.1 hsome
      obtain ⟨g, hg⟩ := h.1.game i hi
      have hne : (s.sink.bindParameter i).serviceID ≠ register.serverID := by
        intro heq
        rw [heq, room_eq_none.2 hnone] at hg
        cases hg
      have hlookup : s.sink.globalInfoManager.mapServerID.lookup
          register.gameServer.serverID = none := hnone
      have hroom := (h.1.rooms.activeServerItem i hlookup).2
      rw [System.step, hc] at hgood
      simp only [Nat.pos_iff_ne_zero.1 hready, if_false, Sink.onEventTCPNetworkRead,
        Sink.registerServer, if_neg hsome, hindex] at hgood
      have hbind : ((s.sink.enterServer i register).bindParameter i).serviceID =
          register.serverID :=
        congrArg BindParameter.serviceID (enterServer_bind_self s.sink i register)
      have hkept : (s.sink.enterServer i register).globalInfoManager.room
          (s.sink.bindParameter i).serviceID =
          s.sink.globalInfoManager.room (s.sink.bindParameter i).serviceID :=
        (congrFun hroom _).trans (Function.update_of_ne hne ..)
      split at hgood
      · exact hne ((hlost hgood hi hkept).2.symm.trans hbind)
      · exact hne ((hlost hgood hi hkept).2.symm.trans hbind)
    | _ => trivial

theorem orderly_start (maxConnect : ℕ) : Orderly (System.start maxConnect) := by
  refine ⟨?_, fun hne => absurd rfl hne⟩
  exact
    { rooms := rooms_empty
      index := nofun
      dead := fun _ _ => rfl
      game := nofun
      room := fun k i g hk => by
        cases hk
      ready := nofun
      distinct := List.nodup_nil
      chosen := nofun
      asked := nofun
      collecting := nofun }

/-- **The rooms of a run.** Where the engine hands out no socket 0, the
bindings, the directory and the collection agree in every state exactly
when no room registers again. -/
theorem registered_iff (maxConnect : ℕ) (es : List NetworkEvent) :
    ((∀ n, Registered (System.step.run (System.start maxConnect) (es.take n)).1) ∧
      System.step.Along NonzeroSocket (System.start maxConnect) es) ↔
      System.step.Along RegisterOk (System.start maxConnect) es :=
  TotalMachine.prefixes_iff (fun _ h => h.1.registered h.2)
    (fun s e h hok => ⟨hok.1, orderly_step s e h hok⟩)
    (fun s e h hnonzero hgood => ⟨hnonzero, registersOnce_of_registered s e h hgood⟩)
    es _ (orderly_start maxConnect)

def registersTwice : List NetworkEvent :=
  [.accept 65536 0 0, .packet 0, .read 0 (.registerServer { serverID := 5 }),
    .read 0 (.registerServer { serverID := 6 })]

/-- The connection of the room 5 is bound to the room 6. -/
theorem registered_twice :
    ¬∀ (maxConnect : ℕ) (es : List NetworkEvent),
      Registered (System.step.run (System.start maxConnect) es).1 := by
  intro h
  have hroom : ((System.step.run (System.start 1) registersTwice).1.sink.globalInfoManager.room
      5).map Prod.fst = some 0 := by decide +kernel
  have hbind : ((System.step.run (System.start 1) registersTwice).1.sink.bindParameter
      0).serviceID = 6 := by decide +kernel
  obtain ⟨⟨i, g⟩, hig, hi⟩ := Option.map_eq_some_iff.1 hroom
  subst hi
  have hbound := ((h 1 registersTwice).room 5 0 g hig).2 0
  exact absurd (hbind.symm.trans (hbound.2 rfl).2) (by decide)

end GameServer.CorrespondServer
