import GameServer.CorrespondServer.Model.ServerListManager
import GameServer.CorrespondServer.Registration
/-!
# CorrespondServer — the room lists of the game servers

A game server that has registered keeps the list of the rooms: what it has
still to process leads to the directory (`Follows`), as long as no report
changes the robots or the kind of a room, which the game servers do not
copy (`replicated_of_along`).
-/

namespace GameServer.CorrespondServer

open KernelEngine (loWord)
open ServerListManager

/-! ## Lists -/

/-- What a game server and the directory agree on. -/
structure Listing where
  kindID : ℕ
  sortID : ℕ
  serverPort : ℕ
  onLineCount : ℕ
  androidCount : ℕ
  fullCount : ℕ
  serverName : String
  serverAddr : String
  deriving DecidableEq

def TagGameServer.listing (g : TagGameServer) : Listing :=
  ⟨g.kindID, g.sortID, g.serverPort, g.onLineCount, g.androidCount, g.fullCount, g.serverName,
    g.serverAddr⟩

def ServerListManager.rooms (l : ServerListManager) (k : ℕ) : Option Listing :=
  (l.searchGameServer k).map fun item => item.gameServer.listing

def Manager.rooms (m : Manager) (k : ℕ) : Option Listing := (m.room k).map fun p => p.2.listing

/-- **What the replication is for.** A game server that has registered and
has processed what it was sent lists the rooms of the directory. -/
def Replicated (s : Cluster) : Prop :=
  ∀ n i c, (s.nodes n).connection = some i → s.system.net i = some c → Game s.system i →
    (s.nodes n).processed = c.sent.length →
      (s.nodes n).list.rooms = s.system.sink.globalInfoManager.rooms

variable {l : ServerListManager} {m : Manager} {k serverID : ℕ} {g : TagGameServer}

section

variable (l : ServerListManager)

theorem modifyKind_map (kindID : ℕ) (f : GameKindItem → GameKindItem) :
    (l.modifyKind kindID f).serverItemMap = l.serverItemMap := by
  rw [modifyKind]
  split <;> rfl

theorem countKind_map (last g : TagGameServer) :
    (l.countKind last g).serverItemMap = l.serverItemMap := by
  rw [countKind]
  split
  · rw [modifyKind_map]
    split
    · exact modifyKind_map ..
    · rfl
  · exact modifyKind_map ..

theorem removeServerItem_map (serverID : ℕ) (item : GameServerItem) :
    (l.removeServerItem serverID item).serverItemMap = l.serverItemMap.erase serverID :=
  modifyKind_map ..

theorem insertGameServer_map (g : TagGameServer) :
    (l.insertGameServer g).serverItemMap = l.serverItemMap.insert g.serverID ⟨false, g⟩ := by
  rw [insertGameServer]
  rw [countKind_map]

theorem search_insertGameServer_self (g : TagGameServer) :
    (l.insertGameServer g).searchGameServer g.serverID = some ⟨false, g⟩ := by
  rw [searchGameServer, insertGameServer_map, AList.lookup_insert]

theorem search_insertGameServer_of_ne (hk : k ≠ g.serverID) :
    (l.insertGameServer g).searchGameServer k = l.searchGameServer k := by
  rw [searchGameServer, insertGameServer_map, AList.lookup_insert_ne hk, searchGameServer]

theorem rooms_insertGameServer (g : TagGameServer) :
    (l.insertGameServer g).rooms = Function.update l.rooms g.serverID (some g.listing) := by
  funext k
  by_cases hk : k = g.serverID
  · subst hk
    rw [Function.update_self, rooms, search_insertGameServer_self]
    rfl
  · rw [Function.update_of_ne hk, rooms, search_insertGameServer_of_ne l hk, rooms]

theorem rooms_deleteGameServer (serverID : ℕ) :
    (l.deleteGameServer serverID).rooms = Function.update l.rooms serverID none := by
  funext k
  rw [deleteGameServer]
  cases hitem : l.searchGameServer serverID with
  | none =>
    by_cases hk : k = serverID
    · subst hk
      rw [Function.update_self, rooms, hitem]
      rfl
    · rw [Function.update_of_ne hk]
  | some item =>
    by_cases hk : k = serverID
    · subst hk
      rw [Function.update_self, rooms, searchGameServer, removeServerItem_map, AList.lookup_erase]
      rfl
    · rw [Function.update_of_ne hk, rooms, searchGameServer, removeServerItem_map,
        AList.lookup_erase_ne hk]
      rfl

theorem rooms_modifyServer (serverID : ℕ) (f : TagGameServer → TagGameServer)
    {fl : Listing → Listing} (hf : ∀ g : TagGameServer, (f g).listing = fl g.listing) :
    (l.modifyServer serverID f).rooms =
      Function.update l.rooms serverID ((l.rooms serverID).map fl) := by
  funext k
  rw [modifyServer]
  cases hitem : l.searchGameServer serverID with
  | none =>
    by_cases hk : k = serverID
    · subst hk
      rw [Function.update_self, rooms, hitem]
      rfl
    · rw [Function.update_of_ne hk]
  | some item =>
    by_cases hk : k = serverID
    · subst hk
      rw [Function.update_self, rooms, rooms, hitem, searchGameServer, AList.lookup_insert]
      exact congrArg some (hf item.gameServer)
    · rw [Function.update_of_ne hk, rooms, searchGameServer, AList.lookup_insert_ne hk]
      rfl

/-! ## The full list -/

theorem search_disuseServerItem (k : ℕ) :
    l.disuseServerItem.searchGameServer k =
      (l.searchGameServer k).map fun item => { item with disuse := true } :=
  Map.lookup_mapValues ..

end

/-- The clean-up removes what is disused. -/
theorem foldl_clean : ∀ (entries : List (Σ _ : ℕ, GameServerItem)) (l : ServerListManager) (k : ℕ),
    (entries.foldl (fun l entry => if entry.2.disuse then l.removeServerItem entry.1 entry.2 else l)
      l).searchGameServer k =
      if ∃ e ∈ entries, e.1 = k ∧ e.2.disuse = true then none else l.searchGameServer k := by
  intro entries
  induction entries with
  | nil =>
    simp
  | cons e entries ih =>
    intro l k
    rw [List.foldl_cons, ih]
    by_cases hrest : ∃ e' ∈ entries, e'.1 = k ∧ e'.2.disuse = true
    · obtain ⟨e', he', hk⟩ := hrest
      rw [if_pos ⟨e', he', hk⟩, if_pos ⟨e', List.mem_cons_of_mem _ he', hk⟩]
    · rw [if_neg hrest]
      by_cases he : e.1 = k ∧ e.2.disuse = true
      · have hex : ∃ e' ∈ e :: entries, e'.1 = k ∧ e'.2.disuse = true :=
          ⟨e, List.mem_cons_self, he⟩
        rw [if_pos hex, if_pos he.2, searchGameServer, removeServerItem_map, he.1,
          AList.lookup_erase]
      · have hnone : ¬∃ e' ∈ e :: entries, e'.1 = k ∧ e'.2.disuse = true := by
          rintro ⟨e', he', hk⟩
          rcases List.mem_cons.1 he' with rfl | he'
          · exact he hk
          · exact hrest ⟨e', he', hk⟩
        rw [if_neg hnone]
        by_cases hd : e.2.disuse = true
        · rw [if_pos hd, searchGameServer, removeServerItem_map,
            AList.lookup_erase_ne fun hk => he ⟨hk.symm, hd⟩, searchGameServer]
        · rw [if_neg hd]

theorem search_cleanServerItem (l : ServerListManager) (k : ℕ) :
    l.cleanServerItem.searchGameServer k = (l.searchGameServer k).filter fun item => !item.disuse := by
  rw [cleanServerItem, foldl_clean]
  cases hitem : l.searchGameServer k with
  | none => simp
  | some item =>
    have hmem : ∀ e ∈ l.serverItemMap.entries, e.1 = k → e.2 = item := by
      rintro ⟨k', v⟩ he rfl
      have hv : l.searchGameServer k' = some v := AList.mem_lookup_iff.2 he
      exact Option.some.inj (hv.symm.trans hitem)
    by_cases hd : item.disuse = true
    · have hex : ∃ e ∈ l.serverItemMap.entries, e.1 = k ∧ e.2.disuse = true :=
        ⟨⟨k, item⟩, AList.mem_lookup_iff.1 hitem, rfl, hd⟩
      rw [if_pos hex, Option.filter_some, hd]
      rfl
    · have hnone : ¬∃ e ∈ l.serverItemMap.entries, e.1 = k ∧ e.2.disuse = true := by
        rintro ⟨e, he, hk, hdisuse⟩
        exact hd (hmem e he hk ▸ hdisuse)
      rw [if_neg hnone, Option.filter_some, Bool.eq_false_iff.2 hd]
      rfl

/-- Inserted rooms are listed and in use, the others are as they were. -/
theorem foldl_insertGameServer : ∀ (servers : List TagGameServer) (l : ServerListManager),
    (servers.map TagGameServer.serverID).Nodup →
      (∀ g ∈ servers, (servers.foldl insertGameServer l).searchGameServer g.serverID =
        some ⟨false, g⟩) ∧
      ∀ k, k ∉ servers.map TagGameServer.serverID →
        (servers.foldl insertGameServer l).searchGameServer k = l.searchGameServer k := by
  intro servers
  induction servers with
  | nil =>
    intro l _
    exact ⟨fun g hg => absurd hg List.not_mem_nil, fun _ _ => rfl⟩
  | cons g servers ih =>
    intro l hnodup
    rw [List.map_cons, List.nodup_cons] at hnodup
    obtain ⟨hlisted, hother⟩ := ih (l.insertGameServer g) hnodup.2
    rw [List.foldl_cons]
    refine ⟨fun g' hg' => ?_, fun k hk => ?_⟩
    · rcases List.mem_cons.1 hg' with rfl | hg'
      · rw [hother _ hnodup.1, search_insertGameServer_self]
      · exact hlisted g' hg'
    · rw [List.map_cons, List.mem_cons, not_or] at hk
      rw [hother k hk.2, search_insertGameServer_of_ne l hk.1]

/-- The packets carry the entries of the buffer and of the rooms. -/
theorem foldl_packets {α : Type} (itemSize : ℕ) (entry : GlobalServerItem → Option α)
    (insert : List α → Message) {f : ServerListManager → α → ServerListManager}
    (hf : ∀ l entries, ServerListManager.onServiceInfo l (insert entries) = entries.foldl f l) :
    ∀ (items : List GlobalServerItem) (buffer : List α) (l : ServerListManager),
      (Sink.packets itemSize entry insert buffer items).foldl onServiceInfo l =
        (buffer ++ items.filterMap entry).foldl f l := by
  intro items
  induction items with
  | nil =>
    intro buffer l
    rw [Sink.packets]
    cases buffer with
    | nil => rfl
    | cons a buffer =>
      rw [if_neg (by simp), List.foldl_cons, List.foldl_nil, hf, List.filterMap_nil, List.append_nil]
  | cons item items ih =>
    intro buffer l
    have hentries : (item :: items).filterMap entry =
        (entry item).toList ++ items.filterMap entry := by
      cases hentry : entry item with
      | none => rw [List.filterMap_cons_none hentry]; rfl
      | some a => rw [List.filterMap_cons_some hentry]; rfl
    rw [Sink.packets, hentries]
    split
    · rw [List.foldl_cons, ih, hf, ← List.foldl_append]
    · rw [ih, List.append_assoc]

theorem enumServerItem_serverIDs {n : Sink} (h : Rooms n.globalInfoManager) :
    (n.enumServerItem.map fun i => i.gameServer).map TagGameServer.serverID =
      n.globalInfoManager.mapServerID.keys := by
  rw [Sink.enumServerItem, Map.values, List.map_map, List.map_map, List.map_map]
  refine List.map_congr_left fun e he => ?_
  exact h.key e.1 e.2 (AList.mem_lookup_iff.2 he)

theorem mem_enumServerItem {n : Sink} {i : ℕ} (hk : n.globalInfoManager.room k = some (i, g)) :
    g ∈ n.enumServerItem.map fun i => i.gameServer := by
  obtain ⟨a, ha, heq⟩ := Option.map_eq_some_iff.1 hk
  cases heq
  rw [Sink.enumServerItem, List.map_map]
  exact List.mem_map_of_mem (Map.mem_values_of_lookup ha)

/-- **The list of a registration.** Whatever a game server listed, after
the packets it lists the rooms of the directory and no other. -/
theorem rooms_serverListItem {n : Sink} (h : Rooms n.globalInfoManager) (l : ServerListManager) :
    (n.serverListItem.foldl onServiceInfo l).rooms = n.globalInfoManager.rooms := by
  let servers := n.enumServerItem.map fun i => i.gameServer
  have hfold : n.serverListItem.foldl onServiceInfo l =
      (servers.foldl insertGameServer l.disuseServerItem).cleanServerItem := by
    rw [Sink.serverListItem, List.foldl_cons, List.foldl_append,
      foldl_packets _ _ _ (f := insertGameServer) (fun _ _ => rfl), List.nil_append,
      List.filterMap_eq_map']
    rfl
  have hids : servers.map TagGameServer.serverID = n.globalInfoManager.mapServerID.keys :=
    enumServerItem_serverIDs h
  have hnodup : (servers.map TagGameServer.serverID).Nodup := by
    rw [hids]
    exact n.globalInfoManager.mapServerID.keys_nodup
  obtain ⟨hlisted, hother⟩ := foldl_insertGameServer servers l.disuseServerItem hnodup
  funext k
  rw [hfold, ServerListManager.rooms, search_cleanServerItem, Manager.rooms]
  cases hk : n.globalInfoManager.room k with
  | none =>
    -- The room is not in the packets, so it stays disused.
    have hnot : k ∉ servers.map TagGameServer.serverID := by
      rw [hids]
      exact AList.lookup_eq_none.1 (room_eq_none.1 hk)
    rw [hother k hnot, search_disuseServerItem]
    cases l.searchGameServer k <;> rfl
  | some p =>
    obtain ⟨i, g⟩ := p
    have hsearch := hlisted g (mem_enumServerItem hk)
    rw [h.serverID hk] at hsearch
    rw [hsearch]
    rfl

/-! ## What reaches a connection -/

/-- What an entry of the send queue brings to a socket. -/
def Send.reach (socketID : ℕ) : Send → List Message
  | .data id message => if id = 0 ∨ id = socketID then [message] else []
  | .batch message => [message]
  | .shutDown _ | .allowBatch .. => []

/-- The messages lead from a list to another one. -/
def Tracks (rooms : ℕ → Option Listing) (messages : List Message) (rooms' : ℕ → Option Listing) :
    Prop :=
  ∀ l : ServerListManager, l.rooms = rooms → (messages.foldl onServiceInfo l).rooms = rooms'

/-- A socket learns what changes in the directory. -/
def Served (n : Sink) (r : Reply) (socketID : ℕ) : Prop :=
  Tracks n.globalInfoManager.rooms (r.sends.flatMap (Send.reach socketID))
    r.sink.globalInfoManager.rooms

/-- The sends close no connection to batches. -/
def Open (sends : List Send) : Prop := ∀ socketID, .allowBatch socketID false ∉ sends

variable {c d : Connection} {sends : List Send}

theorem sent_log_sent (c : Connection) (message : Message) :
    (c.log (.sent message)).sent = c.sent ++ [message] := by
  simp [Connection.sent, Connection.log]

theorem sent_log_received (c : Connection) (request : Request) :
    (c.log (.received request)).sent = c.sent := by
  simp [Connection.sent, Connection.log]

theorem sent_take {x : Send} (hallow : c.allowBatch = true) (hready : 0 < c.recvPacketCount) :
    (c.take x).sent = c.sent ++ x.reach c.socketID := by
  cases x with
  | data id message =>
    have hiff : (if id = 0 then c.allowBatch = true else c.socketID = id) ↔
        id = 0 ∨ id = c.socketID := by
      by_cases hid : id = 0
      · rw [if_pos hid]
        exact ⟨fun _ => .inl hid, fun _ => hallow⟩
      · rw [if_neg hid]
        exact ⟨fun h => .inr h.symm, fun h => (h.resolve_left hid).symm⟩
    rw [Connection.take, Send.reach]
    by_cases hid : id = 0 ∨ id = c.socketID
    · rw [if_pos ⟨hiff.2 hid, hready⟩, if_pos hid, sent_log_sent]
    · rw [if_neg fun h => hid (hiff.1 h.1), if_neg hid, List.append_nil]
  | batch message =>
    rw [Connection.take, if_pos ⟨hallow, hready⟩, sent_log_sent, Send.reach]
  | shutDown id => exact (List.append_nil _).symm
  | allowBatch id allow =>
    rw [Connection.take, Send.reach, List.append_nil]
    split <;> rfl

theorem take_frame (c : Connection) (x : Send) :
    (c.take x).socketID = c.socketID ∧ (c.take x).recvPacketCount = c.recvPacketCount ∧
      ∃ more, (c.take x).sent = c.sent ++ more := by
  have hlog : ∀ message, (c.log (.sent message)).socketID = c.socketID ∧
      (c.log (.sent message)).recvPacketCount = c.recvPacketCount ∧
      ∃ more, (c.log (.sent message)).sent = c.sent ++ more :=
    fun message => ⟨rfl, rfl, _, sent_log_sent c message⟩
  have hself : c.socketID = c.socketID ∧ c.recvPacketCount = c.recvPacketCount ∧
      ∃ more, c.sent = c.sent ++ more := ⟨rfl, rfl, [], (List.append_nil _).symm⟩
  cases x with
  | data id message =>
    have htake : c.take (.data id message) = c.log (.sent message) ∨
        c.take (.data id message) = c := ite_eq_or_eq ..
    rcases htake with heq | heq
    · rw [heq]
      exact hlog message
    · rw [heq]
      exact hself
  | batch message =>
    rw [Connection.take]
    split
    · exact hlog message
    · exact hself
  | shutDown id => exact hself
  | allowBatch id allow =>
    rw [Connection.take]
    split
    · exact ⟨rfl, rfl, [], (List.append_nil _).symm⟩
    · exact hself

theorem foldl_take_frame : ∀ (sends : List Send) (c : Connection),
    (sends.foldl Connection.take c).socketID = c.socketID ∧
      (sends.foldl Connection.take c).recvPacketCount = c.recvPacketCount ∧
      ∃ more, (sends.foldl Connection.take c).sent = c.sent ++ more := by
  intro sends
  induction sends with
  | nil => exact fun c => ⟨rfl, rfl, [], (List.append_nil _).symm⟩
  | cons x sends ih =>
    intro c
    obtain ⟨hid, hrecv, more, hmore⟩ := take_frame c x
    obtain ⟨hid', hrecv', more', hmore'⟩ := ih (c.take x)
    refine ⟨hid'.trans hid, hrecv'.trans hrecv, more ++ more', ?_⟩
    rw [List.foldl_cons, hmore', hmore, List.append_assoc]

theorem allowBatch_take {x : Send} (hallow : c.allowBatch = true) (hopen : Open [x]) :
    (c.take x).allowBatch = true := by
  cases x with
  | data id message =>
    have htake : c.take (.data id message) = c.log (.sent message) ∨
        c.take (.data id message) = c := ite_eq_or_eq ..
    rcases htake with heq | heq
    · rw [heq]
      exact hallow
    · rw [heq]
      exact hallow
  | batch message =>
    rw [Connection.take]
    split
    · exact hallow
    · exact hallow
  | shutDown id => exact hallow
  | allowBatch id allow =>
    rw [Connection.take]
    split
    · cases allow with
      | true => rfl
      | false => exact absurd List.mem_cons_self (hopen id)
    · exact hallow

/-- A connection that is open and ready is sent all that reaches it. -/
theorem foldl_take : ∀ {sends : List Send} {c : Connection}, Open sends → c.allowBatch = true →
    (sends.foldl Connection.take c).allowBatch = true ∧
      (0 < c.recvPacketCount → (sends.foldl Connection.take c).sent =
        c.sent ++ sends.flatMap (Send.reach c.socketID)) := by
  intro sends
  induction sends with
  | nil => exact fun _ hallow => ⟨hallow, fun _ => (List.append_nil _).symm⟩
  | cons x sends ih =>
    intro c hopen hallow
    have hx : Open [x] := fun id hid => hopen id (by
      rw [List.mem_singleton.1 hid]
      exact List.mem_cons_self)
    obtain ⟨hid, hrecv, -⟩ := take_frame c x
    obtain ⟨hallow', hsent⟩ := ih (fun id hid => hopen id (List.mem_cons_of_mem _ hid))
      (allowBatch_take hallow hx)
    refine ⟨hallow', fun hready => ?_⟩
    rw [List.foldl_cons, hsent (by omega), sent_take hallow hready, hid, List.flatMap_cons,
      List.append_assoc]

/-! ## What each reply brings -/

section Replies

variable {n : Sink} {socketID id : ℕ} {r : RegisterServer}

/-- A message a game server does not read for its list. -/
def Ignored (message : Message) : Prop := ∀ l, onServiceInfo l message = l

theorem foldl_ignored {messages : List Message} (h : ∀ x ∈ messages, Ignored x)
    (l : ServerListManager) : messages.foldl onServiceInfo l = l := by
  induction messages with
  | nil => rfl
  | cons x messages ih =>
    rw [List.foldl_cons, h x List.mem_cons_self]
    exact ih fun y hy => h y (List.mem_cons_of_mem _ hy)

theorem mem_reach {x : Send} {message : Message} (h : message ∈ x.reach socketID) :
    (∃ id, x = .data id message) ∨ x = .batch message := by
  cases x with
  | data id m =>
    rw [Send.reach] at h
    split at h
    · exact .inl ⟨id, by rw [List.mem_singleton.1 h]⟩
    · exact absurd h List.not_mem_nil
  | batch m => exact .inr (by rw [List.mem_singleton.1 h])
  | shutDown => exact absurd h List.not_mem_nil
  | allowBatch => exact absurd h List.not_mem_nil

/-- Nothing about the rooms is sent, and they stay as they are. -/
theorem served_ignored {r : Reply} (hrooms : r.sink.globalInfoManager.rooms =
      n.globalInfoManager.rooms)
    (hdata : ∀ id message, .data id message ∈ r.sends → Ignored message)
    (hbatch : ∀ message, .batch message ∈ r.sends → Ignored message) : Served n r socketID := by
  intro l hl
  rw [foldl_ignored, hl, hrooms]
  intro message hm
  obtain ⟨x, hx, hreach⟩ := List.mem_flatMap.1 hm
  rcases mem_reach hreach with ⟨id, rfl⟩ | rfl
  · exact hdata id message hx
  · exact hbatch message hx

theorem rooms_sameRooms {m m' : Manager} (h : SameRooms m m') : m'.rooms = m.rooms := by
  funext k
  rw [Manager.rooms, h.room, Manager.rooms]

theorem rooms_update {m m' : Manager} {o : Option (ℕ × TagGameServer)}
    (h : m'.room = Function.update m.room k o) :
    m'.rooms = Function.update m.rooms k (o.map fun p => p.2.listing) := by
  funext l
  rw [Manager.rooms, h]
  by_cases hl : l = k
  · rw [hl, Function.update_self, Function.update_self]
  · rw [Function.update_of_ne hl, Function.update_of_ne hl, Manager.rooms]

theorem served_registerFailure (describeString : String) :
    Served n (n.registerFailure id describeString) socketID := by
  refine served_ignored rfl (fun id' message hm => ?_) fun message hm => ?_
  · simp only [Sink.registerFailure, List.mem_cons, List.not_mem_nil, or_false] at hm
    rcases hm with heq | heq
    · cases heq
      exact fun _ => rfl
    · cases heq
  · simp [Sink.registerFailure] at hm

theorem served_silent {m : Manager} (h : SameRooms n.globalInfoManager m) (ret : Bool) :
    Served n { sink := { n with globalInfoManager := m }, ret } socketID :=
  served_ignored (rooms_sameRooms h) (fun _ _ hm => absurd hm List.not_mem_nil)
    fun _ hm => absurd hm List.not_mem_nil

theorem served_registerMatch (gameMatch : GameMatch) :
    Served n (n.registerMatch gameMatch) socketID := by
  rw [Sink.registerMatch]
  split
  · exact served_silent (.refl _) true
  · refine served_ignored (rooms_sameRooms (sameRooms_setMatch _ _)) (fun id message hm => ?_)
      fun message hm => ?_
    · simp at hm
    · simp only [List.mem_singleton] at hm
      cases hm
      exact fun _ => rfl

theorem served_switchCollect : Served n n.switchCollect socketID := by
  rw [Sink.switchCollect]
  split
  · exact served_silent (.refl _) true
  · refine served_ignored rfl (fun id message hm => ?_) fun message hm => ?_
    · simp only [List.mem_singleton] at hm
      cases hm
      exact fun _ => rfl
    · simp at hm

/-- The notice of a change and the change agree on what is listed. -/
theorem served_setServer (h : Rooms n.globalInfoManager) (serverID : ℕ)
    {f : TagGameServer → TagGameServer} {notice : Message} {u : Listing → Listing}
    (hf : ∀ g, (f g).serverID = g.serverID)
    (hnotice : ∀ l : ServerListManager, (onServiceInfo l notice).rooms =
      Function.update l.rooms serverID ((l.rooms serverID).map u))
    (hkept : ∀ i g, n.globalInfoManager.room serverID = some (i, g) →
      (f g).listing = u g.listing) :
    Served n (n.setServer serverID f notice) socketID := by
  rw [Sink.setServer]
  split
  · exact served_silent (.refl _) true
  · rename_i a ha
    obtain ⟨-, hroom⟩ := h.modify ha hf
    have hself := room_of_lookup ha
    intro l hl
    refine Eq.trans ?_ (rooms_update hroom).symm
    have hlisting : (l.rooms serverID).map u =
        some (u (n.globalInfoManager.server a).gameServer.listing) := by
      rw [hl, Manager.rooms, hself]
      rfl
    show (onServiceInfo l notice).rooms = _
    rw [hnotice, hlisting, hl, Option.map_some, hkept _ _ hself]

theorem served_ofGame {f : ℕ → Reply}
    (hf : (n.bindParameter (loWord id)).serviceKind = .game →
      Served n (f (n.bindParameter (loWord id)).serviceID) socketID) :
    Served n (n.ofGame id f) socketID := by
  rw [Sink.ofGame]
  split
  · exact hf ‹_›
  · exact served_silent (.refl _) false

theorem served_serverOnLine (h : Rooms n.globalInfoManager) (onLineCount androidCount : ℕ)
    (hkept : (n.bindParameter (loWord id)).serviceKind = .game → ∀ i g,
      n.globalInfoManager.room (n.bindParameter (loWord id)).serviceID = some (i, g) →
        androidCount = g.androidCount) :
    Served n (n.serverOnLine id onLineCount androidCount) socketID := by
  refine served_ofGame fun hgame => served_setServer h _ (fun _ => rfl)
    (u := fun x => { x with onLineCount }) (fun l => ?_) fun i g hg => ?_
  · exact rooms_modifyServer l _ _ fun _ => rfl
  · rw [hkept hgame i g hg]
    rfl

theorem served_serverModify (h : Rooms n.globalInfoManager) (modify : ServerModify)
    (hkept : (n.bindParameter (loWord id)).serviceKind = .game → ∀ i g,
      n.globalInfoManager.room (n.bindParameter (loWord id)).serviceID = some (i, g) →
        modify.androidCount = g.androidCount ∧ modify.kindID = g.kindID) :
    Served n (n.serverModify id modify) socketID := by
  refine served_ofGame fun hgame => served_setServer h _ (fun _ => rfl)
    (u := fun x => { x with
      sortID := modify.sortID, serverPort := modify.serverPort, onLineCount := modify.onLineCount
      fullCount := modify.fullCount, serverName := modify.serverName
      serverAddr := modify.serverAddr }) (fun l => ?_) fun i g hg => ?_
  · exact rooms_modifyServer l _ _ fun _ => rfl
  · obtain ⟨handroid, hkind⟩ := hkept hgame i g hg
    rw [ServerModify.write, handroid, hkind]
    rfl

/-! ### Lists -/

theorem reach_data_of_ne (hzero : id ≠ 0) (hne : id ≠ socketID) (messages : List Message) :
    (messages.map (Send.data id)).flatMap (Send.reach socketID) = [] := by
  rw [List.flatMap_map, List.flatMap_eq_nil_iff]
  intro message _
  exact if_neg fun h => h.elim hzero hne

theorem reach_data_self (messages : List Message) :
    (messages.map (Send.data id)).flatMap (Send.reach id) = messages := by
  rw [List.flatMap_map]
  have hreach : ∀ message, (Send.data id message).reach id = [message] :=
    fun message => if_pos (.inr rfl)
  simp only [hreach]
  exact List.flatMap_singleton' messages

theorem matchListItem_ignored (n : Sink) (l : ServerListManager) :
    n.matchListItem.foldl onServiceInfo l = l := by
  rw [Sink.matchListItem, foldl_packets _ _ _ (f := fun l _ => l)]
  · exact List.foldl_fixed _
  · exact fun l entries => (List.foldl_fixed entries).symm

/-- The lists go to the connection that registers, and to no other one. -/
theorem reach_lists_of_ne (hzero : id ≠ 0) (hne : id ≠ socketID) (n : Sink) :
    (n.sendServerListItem id ++ n.sendMatchListItem id ++ [Send.allowBatch id true]).flatMap
      (Send.reach socketID) = [] := by
  rw [List.flatMap_append, List.flatMap_append, Sink.sendServerListItem, Sink.sendMatchListItem,
    reach_data_of_ne hzero hne, reach_data_of_ne hzero hne]
  rfl

theorem reach_lists_self (n : Sink) :
    (n.sendServerListItem id ++ n.sendMatchListItem id ++ [Send.allowBatch id true]).flatMap
      (Send.reach id) = n.serverListItem ++ n.matchListItem := by
  rw [List.flatMap_append, List.flatMap_append, Sink.sendServerListItem, Sink.sendMatchListItem,
    reach_data_self, reach_data_self]
  exact List.append_nil _

theorem served_registerPlaza (hzero : id ≠ 0) (hne : id ≠ socketID) (serverName serverAddr : String) :
    Served n (n.registerPlaza id serverName serverAddr) socketID := by
  rw [Sink.registerPlaza]
  split
  · exact served_registerFailure _
  · intro l hl
    rw [reach_lists_of_ne hzero hne, List.foldl_nil, hl]
    exact (rooms_sameRooms (sameRooms_activePlazaItem n.globalInfoManager ..)).symm

/-- What a registration brings, but for the collect request. -/
theorem registerServer_reach (id socketID : ℕ)
    (hnew : n.globalInfoManager.searchServerItem r.serverID = none) :
    ∃ more : List Message, (∀ x ∈ more, Ignored x) ∧
      (n.registerServer id r).sends.flatMap (Send.reach socketID) =
        .serverInsert [r.gameServer] ::
          ((n.enterServer (loWord id) r).sendServerListItem id ++
            (n.enterServer (loWord id) r).sendMatchListItem id ++ [Send.allowBatch id true]).flatMap
              (Send.reach socketID) ++ more := by
  rw [Sink.registerServer, hnew, if_neg (by simp)]
  dsimp only
  split
  · refine ⟨(Send.data id .collectRequest).reach socketID, fun x hx => ?_, ?_⟩
    · rcases mem_reach hx with ⟨id', heq⟩ | heq
      · cases heq
        exact fun _ => rfl
      · cases heq
    · simp [Send.reach, List.flatMap_cons]
  · exact ⟨[], fun x hx => absurd hx List.not_mem_nil, by simp [Send.reach, List.flatMap_cons]⟩

theorem registerServer_manager (hnew : n.globalInfoManager.searchServerItem r.serverID = none) :
    (n.registerServer id r).sink.globalInfoManager =
      (n.enterServer (loWord id) r).globalInfoManager := by
  rw [Sink.registerServer, hnew, if_neg (by simp)]
  dsimp only
  split <;> rfl

theorem served_registerServer (h : Rooms n.globalInfoManager) (hzero : id ≠ 0)
    (hne : id ≠ socketID)
    (hnew : n.globalInfoManager.searchServerItem r.serverID = none) :
    Served n (n.registerServer id r) socketID := by
  obtain ⟨more, hmore, hreach⟩ := registerServer_reach id socketID hnew
  have hlookup : n.globalInfoManager.mapServerID.lookup r.gameServer.serverID = none := hnew
  intro l hl
  rw [hreach, reach_lists_of_ne hzero hne, registerServer_manager hnew, List.cons_append,
    List.nil_append, List.foldl_cons, foldl_ignored hmore]
  refine Eq.trans ?_ (rooms_update (h.activeServerItem (loWord id) hlookup).2).symm
  show (l.insertGameServer r.gameServer).rooms = _
  rw [rooms_insertGameServer, hl]
  rfl

theorem listed_registerServer (h : Rooms n.globalInfoManager)
    (hnew : n.globalInfoManager.searchServerItem r.serverID = none) (l : ServerListManager) :
    (((n.registerServer id r).sends.flatMap (Send.reach id)).foldl onServiceInfo l).rooms =
      (n.registerServer id r).sink.globalInfoManager.rooms := by
  obtain ⟨more, hmore, hreach⟩ := registerServer_reach id id hnew
  have hlookup : n.globalInfoManager.mapServerID.lookup r.gameServer.serverID = none := hnew
  have hrooms : Rooms (n.enterServer (loWord id) r).globalInfoManager :=
    (h.activeServerItem (loWord id) hlookup).1
  rw [hreach, reach_lists_self, registerServer_manager hnew, List.cons_append, List.foldl_cons,
    List.foldl_append, foldl_ignored hmore, List.foldl_append, matchListItem_ignored]
  exact rooms_serverListItem hrooms _

theorem served_shut (h : Rooms n.globalInfoManager) :
    Served n (n.onEventTCPNetworkShut id) socketID := by
  rw [Sink.onEventTCPNetworkShut]
  dsimp only
  generalize (n.bindParameter (loWord id)).serviceID = serviceID
  split
  · have hleave : Served n (n.leaveCollect (loWord id)) socketID ∧
        (n.leaveCollect (loWord id)).sink.globalInfoManager = n.globalInfoManager := by
      rw [Sink.leaveCollect]
      split
      · refine ⟨served_switchCollect, ?_⟩
        rw [Sink.switchCollect]
        split <;> rfl
      · exact ⟨served_silent (.refl _) true, rfl⟩
    intro l hl
    have hsame := hleave.1 l hl
    rw [hleave.2] at hsame ⊢
    refine Eq.trans ?_ (rooms_update (h.deleteServerItem serviceID).2).symm
    rw [List.flatMap_append, List.foldl_append]
    show (deleteGameServer _ serviceID).rooms = _
    rw [rooms_deleteGameServer, hsame]
    rfl
  · exact fun l hl => hl.trans (rooms_sameRooms (sameRooms_deletePlazaItem ..)).symm
  · exact fun l hl => hl

theorem open_lists (n : Sink) (id : ℕ) :
    Open (n.sendServerListItem id ++ n.sendMatchListItem id ++ [Send.allowBatch id true]) := by
  intro socketID hmem
  simp [Sink.sendServerListItem, Sink.sendMatchListItem] at hmem

theorem open_setServer (serverID : ℕ) (f : TagGameServer → TagGameServer) (notice : Message) :
    Open (n.setServer serverID f notice).sends := by
  intro socketID hmem
  rw [Sink.setServer] at hmem
  split at hmem <;> simp at hmem

theorem open_ofGame {f : ℕ → Reply} (hf : ∀ serverID, Open (f serverID).sends) :
    Open (n.ofGame id f).sends := by
  rw [Sink.ofGame]
  split
  · exact hf _
  · exact fun _ => List.not_mem_nil

theorem open_switchCollect : Open n.switchCollect.sends := by
  intro socketID hmem
  rw [Sink.switchCollect] at hmem
  split at hmem <;> simp at hmem

theorem open_read (request : Request) : Open (n.onEventTCPNetworkRead id request).sends := by
  cases request with
  | registerPlaza serverName serverAddr =>
    rw [Sink.onEventTCPNetworkRead, Sink.registerPlaza]
    split
    · exact fun socketID hmem => by simp [Sink.registerFailure] at hmem
    · exact open_lists _ id
  | registerServer register =>
    rw [Sink.onEventTCPNetworkRead, Sink.registerServer]
    split
    · exact fun socketID hmem => by simp [Sink.registerFailure] at hmem
    · have hlists := open_lists (n.enterServer (loWord id) register) id
      intro socketID hmem
      have hnot := hlists socketID
      dsimp only at hmem
      split at hmem <;> simp_all
  | registerMatch gameMatch =>
    intro socketID hmem
    rw [Sink.onEventTCPNetworkRead, Sink.registerMatch] at hmem
    split at hmem <;> simp at hmem
  | serverOnLine => exact open_ofGame fun _ => open_setServer _ _ _
  | serverModify => exact open_ofGame fun _ => open_setServer _ _ _
  | userEnter => exact open_ofGame fun _ _ => List.not_mem_nil
  | userLeave => exact open_ofGame fun _ _ => List.not_mem_nil
  | userFinish =>
    rw [Sink.onEventTCPNetworkRead, Sink.userFinish]
    split
    · exact open_switchCollect
    · exact fun _ => List.not_mem_nil

theorem open_shut : Open (n.onEventTCPNetworkShut id).sends := by
  rw [Sink.onEventTCPNetworkShut]
  split
  · have hleave : Open (n.leaveCollect (loWord id)).sends := by
      rw [Sink.leaveCollect]
      split
      · exact open_switchCollect
      · exact fun _ => List.not_mem_nil
    intro socketID hmem
    rcases List.mem_append.1 hmem with hmem | hmem
    · exact hleave socketID hmem
    · simp at hmem
  · exact fun _ => List.not_mem_nil
  · exact fun _ => List.not_mem_nil

/-- The bindings of rooms a request makes. -/
theorem read_bind (request : Request) (j : ℕ)
    (hj : ((n.onEventTCPNetworkRead id request).sink.bindParameter j).serviceKind = .game) :
    (n.bindParameter j).serviceKind = .game ∨
      (j = loWord id ∧ ∃ register, request = .registerServer register ∧
        n.globalInfoManager.searchServerItem register.serverID = none) := by
  cases request with
  | registerPlaza serverName serverAddr =>
    rw [Sink.onEventTCPNetworkRead, Sink.registerPlaza] at hj
    split at hj
    · exact .inl hj
    · by_cases hji : j = loWord id
      · rw [hji] at hj
        simp [Sink.setBind] at hj
      · simp [Sink.setBind, Function.update_of_ne hji] at hj
        exact .inl hj
  | registerServer register =>
    rw [Sink.onEventTCPNetworkRead, Sink.registerServer] at hj
    split at hj
    · exact .inl hj
    · rename_i hnew
      by_cases hji : j = loWord id
      · exact .inr ⟨hji, register, rfl, Option.not_isSome_iff_eq_none.1 hnew⟩
      · refine .inl ?_
        dsimp only at hj
        split at hj <;> rwa [enterServer_bind_of_ne n register hji] at hj
  | registerMatch gameMatch =>
    rw [Sink.onEventTCPNetworkRead, Sink.registerMatch] at hj
    split at hj <;> exact .inl hj
  | serverOnLine =>
    rw [Sink.onEventTCPNetworkRead, Sink.serverOnLine, Sink.ofGame, Sink.setServer] at hj
    split at hj
    · split at hj <;> exact .inl hj
    · exact .inl hj
  | serverModify =>
    rw [Sink.onEventTCPNetworkRead, Sink.serverModify, Sink.ofGame, Sink.setServer] at hj
    split at hj
    · split at hj <;> exact .inl hj
    · exact .inl hj
  | userEnter =>
    rw [Sink.onEventTCPNetworkRead, Sink.userEnter, Sink.ofGame] at hj
    split at hj <;> exact .inl hj
  | userLeave =>
    rw [Sink.onEventTCPNetworkRead, Sink.userLeave, Sink.ofGame] at hj
    split at hj <;> exact .inl hj
  | userFinish =>
    rw [Sink.onEventTCPNetworkRead, Sink.userFinish] at hj
    split at hj
    · rw [Sink.switchCollect] at hj
      split at hj <;> exact .inl hj
    · exact .inl hj

end Replies

/-! ## Steps of the coordination server -/

/-- No report changes the robots or the kind of a room. -/
def ReportsKept (t : System) : NetworkEvent → Prop
  | .read i (.serverOnLine _ androidCount) => Game t i →
      ∀ p ∈ t.sink.globalInfoManager.room (t.sink.bindParameter i).serviceID,
        androidCount = p.2.androidCount
  | .read i (.serverModify modify) => Game t i →
      ∀ p ∈ t.sink.globalInfoManager.room (t.sink.bindParameter i).serviceID,
        modify.androidCount = p.2.androidCount ∧ modify.kindID = p.2.kindID
  | _ => True

/-- Every connection takes batches. -/
def Allowed (t : System) : Prop := ∀ i c, t.net i = some c → c.allowBatch = true

/-- What a connection is sent in a step leads from the directory before it
to the directory after it, and from any list where it has just registered. -/
def Advances (t t' : System) : Prop :=
  ∀ i c d, t.net i = some c → t'.net i = some d → ∃ more, d.sent = c.sent ++ more ∧
    (Game t' i → ∀ l : ServerListManager, (Game t i → l.rooms = t.sink.globalInfoManager.rooms) →
      (more.foldl onServiceInfo l).rooms = t'.sink.globalInfoManager.rooms)

variable {t t' t₁ : System} {i j : ℕ} {r : Reply}

theorem Advances.refl (t : System) : Advances t t := by
  intro i c d hc hd
  rw [hc] at hd
  cases hd
  exact ⟨[], (List.append_nil _).symm, fun hi l hl => hl hi⟩

/-- The queue is sent from a state with the same traffic to where it goes. -/
theorem advances_post (horderly : Orderly (t₁.post r)) (hallowed : Allowed t₁)
    (hopen : Open r.sends) (hsent : ∀ i c c₁, t.net i = some c → t₁.net i = some c₁ → c₁.sent = c.sent)
    (hserve : ∀ i c₁, t₁.net i = some c₁ → Game (t₁.post r) i → ∀ l : ServerListManager,
      (Game t i → l.rooms = t.sink.globalInfoManager.rooms) →
        ((r.sends.flatMap (Send.reach c₁.socketID)).foldl onServiceInfo l).rooms =
          r.sink.globalInfoManager.rooms) :
    Allowed (t₁.post r) ∧ Advances t (t₁.post r) := by
  refine ⟨fun i d hd => ?_, fun i c d hc hd => ?_⟩
  · obtain ⟨c₁, hc₁, rfl⟩ := Option.map_eq_some_iff.1 hd
    exact (foldl_take hopen (hallowed i c₁ hc₁)).1
  · have hready := horderly.1.ready i d hd
    obtain ⟨c₁, hc₁, rfl⟩ := Option.map_eq_some_iff.1 hd
    obtain ⟨-, hrecv, more, hmore⟩ := foldl_take_frame r.sends c₁
    by_cases hi : Game (t₁.post r) i
    · -- A room is ready, so all that reaches it is sent.
      have hpos : 0 < c₁.recvPacketCount := by
        have := hready hi
        omega
      refine ⟨_, ?_, fun _ l hl => hserve i c₁ hc₁ hi l hl⟩
      rw [(foldl_take hopen (hallowed i c₁ hc₁)).2 hpos, hsent i c c₁ hc hc₁]
    · exact ⟨more, by rw [hmore, hsent i c c₁ hc hc₁], fun hi' => absurd hi' hi⟩

theorem allowed_setConnection (h : Allowed t) {c : Connection} (hc : c.allowBatch = true) :
    Allowed (t.setConnection i (some c)) := by
  intro j d hd
  rcases setConnection_eq_some hd with ⟨-, heq⟩ | ⟨-, heq⟩
  · cases heq
    exact hc
  · exact h j d heq

theorem advances_read (h : Orderly t) (hallowed : Allowed t) {request : Request} {c : Connection}
    (hc : t.net i = some c) (hready : 0 < c.recvPacketCount)
    (hok : RegistersOnce t (.read i request)) (hkept : ReportsKept t (.read i request)) :
    Allowed ((t.setConnection i (some (c.log (.received request)))).post
        (t.sink.onEventTCPNetworkRead c.socketID request)) ∧
      Advances t ((t.setConnection i (some (c.log (.received request)))).post
        (t.sink.onEventTCPNetworkRead c.socketID request)) := by
  obtain ⟨hindex, hzero, -⟩ := h.1.index i c hc
  refine advances_post (h.read hc hready hok)
    (allowed_setConnection hallowed (hallowed i c hc)) (open_read request)
    (fun j e e₁ he he₁ => ?_) fun j e he hj l hl => ?_
  · rcases setConnection_eq_some he₁ with ⟨rfl, heq⟩ | ⟨-, heq⟩
    · rw [hc] at he
      cases he
      cases heq
      exact sent_log_received c request
    · rw [he] at heq
      cases heq
      rfl
  · -- A connection that registers its room now, or one of another room.
    have hsocket : j ≠ i → c.socketID ≠ e.socketID := by
      intro hji heq
      rcases setConnection_eq_some he with ⟨hj, -⟩ | ⟨-, he⟩
      · exact hji hj
      · exact hji ((h.1.index j e he).1.symm.trans (heq ▸ hindex))
    have hself : j = i → e.socketID = c.socketID := by
      intro hji
      rcases setConnection_eq_some he with ⟨-, heq⟩ | ⟨hne, -⟩
      · cases heq
        rfl
      · exact absurd hji hne
    rcases read_bind request j hj with hgame | ⟨hji, register, rfl, hnew⟩
    · cases request with
      | registerPlaza a b =>
        by_cases hji : j = i
        · -- The plaza is refused: it comes from a room.
          have hempty := hok (hji ▸ hgame)
          rw [Sink.onEventTCPNetworkRead, Sink.registerPlaza, if_pos hempty]
          exact served_registerFailure _ l (hl hgame)
        · exact served_registerPlaza hzero (hsocket hji) a b l (hl hgame)
      | registerServer register =>
        cases hnew : t.sink.globalInfoManager.searchServerItem register.serverID with
        | none =>
          by_cases hji : j = i
          · have hsome := hok (hji ▸ hgame)
            rw [hnew] at hsome
            cases hsome
          · exact served_registerServer h.1.rooms hzero (hsocket hji) hnew l (hl hgame)
        | some a =>
          rw [Sink.onEventTCPNetworkRead, Sink.registerServer, hnew,
            if_pos Option.isSome_some]
          exact served_registerFailure _ l (hl hgame)
      | registerMatch gameMatch => exact served_registerMatch gameMatch l (hl hgame)
      | serverOnLine onLineCount androidCount =>
        refine served_serverOnLine h.1.rooms _ _ ?_ l (hl hgame)
        rw [hindex]
        exact fun hi k g hg => hkept hi (k, g) hg
      | serverModify modify =>
        refine served_serverModify h.1.rooms _ ?_ l (hl hgame)
        rw [hindex]
        exact fun hi k g hg => hkept hi (k, g) hg
      | userEnter info =>
        exact served_ofGame (fun _ => served_silent (sameRooms_activeUserItem ..) true) l (hl hgame)
      | userLeave userID =>
        exact served_ofGame (fun _ => served_silent (sameRooms_deleteUserItem ..) true) l (hl hgame)
      | userFinish =>
        rw [Sink.onEventTCPNetworkRead, Sink.userFinish]
        split
        · exact served_switchCollect l (hl hgame)
        · exact served_silent (.refl _) false l (hl hgame)
    · rw [hself (hji.trans hindex)]
      exact listed_registerServer h.1.rooms hnew l

theorem advances_shut (h : Orderly t) (hallowed : Allowed t) {c : Connection}
    (hc : t.net i = some c) :
    Allowed ((t.setConnection i none).post (t.sink.onEventTCPNetworkShut c.socketID)) ∧
      Advances t ((t.setConnection i none).post (t.sink.onEventTCPNetworkShut c.socketID)) := by
  obtain ⟨hindex, -, -⟩ := h.1.index i c hc
  have horderly : Orderly ((t.setConnection i none).post
      (t.sink.onEventTCPNetworkShut c.socketID)) := by
    by_cases hi : Game t i
    · exact h.shutGame hc hi
    · exact h.shutOther hc hi
  have hother : ∀ j d, (t.setConnection i none).net j = some d → j ≠ i ∧ t.net j = some d := by
    intro j d hd
    exact (setConnection_eq_some hd).resolve_left fun hn => nomatch hn.2
  refine advances_post horderly (fun j d hd => hallowed j d (hother j d hd).2) open_shut
    (fun j e e₁ he he₁ => ?_) fun j e he hj l hl => ?_
  · have heq := (hother j e₁ he₁).2
    rw [he] at heq
    cases heq
    rfl
  · have hji := (hother j e he).1
    refine served_shut h.1.rooms l (hl ?_)
    -- Only the binding of the connection that goes is cleared.
    have hbind : (t.sink.onEventTCPNetworkShut c.socketID).sink.bindParameter j =
        t.sink.bindParameter j := by
      rw [Sink.onEventTCPNetworkShut, hindex]
      rw [setBind_of_ne _ _ hji]
      split
      · rw [Sink.leaveCollect]
        split
        · rw [Sink.switchCollect]
          split <;> rfl
        · rfl
      · rfl
      · rfl
    exact (congrArg BindParameter.serviceKind hbind).symm.trans hj

theorem advances_step (t : System) (e : NetworkEvent) (h : Orderly t) (hallowed : Allowed t)
    (hok : RegisterOk t e) (hkept : ReportsKept t e) :
    Allowed (System.step t e).1 ∧ Advances t (System.step t e).1 := by
  cases e with
  | accept socketID clientAddr activeTime =>
    rw [System.step]
    split
    · rename_i hfree
      rw [Sink.onEventTCPNetworkBind] at hfree ⊢
      by_cases hmax : t.sink.maxConnect ≤ loWord socketID
      · rw [if_pos hmax] at hfree
        exact absurd hfree.2 (by simp)
      · rw [if_neg hmax]
        refine ⟨fun i d hd => ?_, fun i c d hc hd => ?_⟩
        · obtain ⟨c₁, hc₁, rfl⟩ := Option.map_eq_some_iff.1 hd
          exact allowed_setConnection hallowed rfl i c₁ hc₁
        · obtain ⟨c₁, hc₁, rfl⟩ := Option.map_eq_some_iff.1 hd
          rcases setConnection_eq_some hc₁ with ⟨rfl, -⟩ | ⟨hne, hc'⟩
          · rw [Option.isNone_iff_eq_none.1 hfree.1] at hc
            cases hc
          · rw [hc] at hc'
            cases hc'
            refine ⟨[], (List.append_nil _).symm, fun hi l hl => hl ?_⟩
            have hbind := setBind_of_ne t.sink
              (fun p => { p with socketID, clientAddr, activeTime }) hne
            exact (congrArg BindParameter.serviceKind hbind).symm.trans hi
    · exact ⟨hallowed, .refl t⟩
  | packet i =>
    rw [System.step]
    cases hc : t.net i with
    | none => exact ⟨hallowed, .refl t⟩
    | some c =>
      refine ⟨allowed_setConnection hallowed (hallowed i c hc), fun j e d he hd => ?_⟩
      have hsent : d.sent = e.sent := by
        rcases setConnection_eq_some hd with ⟨rfl, heq⟩ | ⟨-, heq⟩
        · rw [hc] at he
          cases he
          cases heq
          rfl
        · rw [he] at heq
          cases heq
          rfl
      exact ⟨[], by rw [hsent, List.append_nil], fun hi l hl => hl hi⟩
  | read i request =>
    rw [System.step]
    cases hc : t.net i with
    | none => exact ⟨hallowed, .refl t⟩
    | some c =>
      dsimp only
      by_cases hready : c.recvPacketCount = 0
      · rw [if_pos hready]
        exact ⟨hallowed, .refl t⟩
      · rw [if_neg hready]
        exact advances_read h hallowed hc (Nat.pos_of_ne_zero hready) hok.2 hkept
  | shut i =>
    rw [System.step]
    cases hc : t.net i with
    | none => exact ⟨hallowed, .refl t⟩
    | some c => exact advances_shut h hallowed hc

/-! ## Runs of the game servers -/

/-- The condition at an event at the coordination server. -/
def networkOk (t : System) (e : NetworkEvent) : Prop := RegisterOk t e ∧ ReportsKept t e

/-- Each connection registers once, and no report changes the robots or
the kind of a room. -/
def ReplicaOk (s : Cluster) : ClusterEvent → Prop
  | .network e => networkOk s.system e
  | .connect _ socketID clientAddr activeTime =>
      networkOk s.system (.accept socketID clientAddr activeTime)
  | _ => True

instance (t : System) : ∀ e, Decidable (NonzeroSocket t e)
  | .accept .. => inferInstanceAs (Decidable (_ ≠ _))
  | .packet _ | .read .. | .shut _ => isTrue trivial

instance (t : System) : ∀ e, Decidable (RegistersOnce t e)
  | .read _ (.registerServer _) => inferInstanceAs (Decidable (_ → _))
  | .read _ (.registerPlaza ..) => inferInstanceAs (Decidable (_ → _ ∨ _))
  | .read _ (.registerMatch _) | .read _ (.serverOnLine ..) | .read _ (.serverModify _)
  | .read _ (.userEnter _) | .read _ (.userLeave _) | .read _ .userFinish
  | .accept .. | .packet _ | .shut _ => isTrue trivial

instance (t : System) : ∀ e, Decidable (ReportsKept t e)
  | .read _ (.serverOnLine ..) => inferInstanceAs (Decidable (_ → ∀ p ∈ _, _ = _))
  | .read _ (.serverModify _) => inferInstanceAs (Decidable (_ → ∀ p ∈ _, _ = _ ∧ _ = _))
  | .read _ (.registerMatch _) | .read _ (.registerServer _) | .read _ (.registerPlaza ..)
  | .read _ (.userEnter _) | .read _ (.userLeave _) | .read _ .userFinish
  | .accept .. | .packet _ | .shut _ => isTrue trivial

instance (t : System) (e : NetworkEvent) : Decidable (networkOk t e) :=
  inferInstanceAs (Decidable ((_ ∧ _) ∧ _))

instance (s : Cluster) : ∀ e, Decidable (ReplicaOk s e)
  | .network _ => inferInstanceAs (Decidable (networkOk _ _))
  | .connect .. => inferInstanceAs (Decidable (networkOk _ _))
  | .process _ | .disconnect _ => isTrue trivial

/-- What a registered game server has still to process leads to the
directory. -/
structure Follows (s : Cluster) : Prop where
  orderly : Orderly s.system
  allowed : Allowed s.system
  live : ∀ n i, (s.nodes n).connection = some i → ∃ c, s.system.net i = some c
  processed : ∀ n i c, (s.nodes n).connection = some i → s.system.net i = some c →
    (s.nodes n).processed ≤ c.sent.length
  lists : ∀ n i c, (s.nodes n).connection = some i → s.system.net i = some c →
    Game s.system i → ((c.sent.drop (s.nodes n).processed).foldl onServiceInfo
      (s.nodes n).list).rooms = s.system.sink.globalInfoManager.rooms

variable {s : Cluster}

theorem Follows.replicated (h : Follows s) : Replicated s := by
  intro n i c hn hc hi hdone
  have hlists := h.lists n i c hn hc hi
  rwa [hdone, List.drop_length, List.foldl_nil] at hlists

/-- A step of the coordination server, where the game servers that lose
their connection know. -/
theorem Follows.advances (h : Follows s) {t' : System} {nodes : ℕ → GameNode}
    (horderly : Orderly t') (hallowed : Allowed t') (hadvances : Advances s.system t')
    (hnodes : ∀ n i, (nodes n).connection = some i → nodes n = s.nodes n ∧
      ∃ c, t'.net i = some c) : Follows ⟨t', nodes⟩ where
  orderly := horderly
  allowed := hallowed
  live n i hn := (hnodes n i hn).2
  processed n i d hn hd := by
    obtain ⟨hnode, -⟩ := hnodes n i hn
    replace hn : (nodes n).connection = some i := hn
    show (nodes n).processed ≤ d.sent.length
    rw [hnode] at hn ⊢
    obtain ⟨c, hc⟩ := h.live n i hn
    obtain ⟨more, hmore, -⟩ := hadvances i c d hc hd
    have := h.processed n i c hn hc
    rw [hmore, List.length_append]
    omega
  lists n i d hn hd hi := by
    obtain ⟨hnode, -⟩ := hnodes n i hn
    replace hn : (nodes n).connection = some i := hn
    show ((d.sent.drop (nodes n).processed).foldl onServiceInfo (nodes n).list).rooms = _
    rw [hnode] at hn ⊢
    obtain ⟨c, hc⟩ := h.live n i hn
    obtain ⟨more, hmore, hlead⟩ := hadvances i c d hc hd
    rw [hmore, List.drop_append_of_le_length (h.processed n i c hn hc), List.foldl_append]
    exact hlead hi _ fun hgame => h.lists n i c hn hc hgame

/-- A connection stays for what is not its end. -/
theorem net_step (t : System) (e : NetworkEvent) (hlive : ∃ c, t.net j = some c)
    (he : e ≠ .shut j) : ∃ d, (System.step t e).1.net j = some d := by
  obtain ⟨c, hc⟩ := hlive
  have hpost : ∀ (t₁ : System) (r : Reply), (∃ d, t₁.net j = some d) →
      ∃ d, (t₁.post r).net j = some d := by
    rintro t₁ r ⟨d, hd⟩
    exact ⟨_, by rw [post_net, hd, Option.map_some]⟩
  have hset : ∀ (i : ℕ) (d : Connection), ∃ d', (t.setConnection i (some d)).net j = some d' := by
    intro i d
    by_cases hj : j = i
    · exact ⟨d, by rw [hj, setConnection_self]⟩
    · exact ⟨c, by rw [setConnection_of_ne t _ hj, hc]⟩
  cases e with
  | accept =>
    rw [System.step]
    split
    · exact hpost _ _ (hset _ _)
    · exact ⟨c, hc⟩
  | packet i =>
    rw [System.step]
    split
    · exact ⟨c, hc⟩
    · exact hset _ _
  | read i request =>
    rw [System.step]
    split
    · exact ⟨c, hc⟩
    · split
      · exact ⟨c, hc⟩
      · exact hpost _ _ (hset _ _)
  | shut i =>
    have hj : j ≠ i := fun heq => he (heq ▸ rfl)
    rw [System.step]
    split
    · exact ⟨c, hc⟩
    · exact hpost _ _ ⟨c, by rw [setConnection_of_ne t _ hj, hc]⟩

theorem Follows.network (h : Follows s) {e : NetworkEvent} (hok : networkOk s.system e) :
    Follows (Cluster.step s (.network e)).1 := by
  have horderly := orderly_step s.system e h.orderly hok.1
  obtain ⟨hallowed, hadvances⟩ := advances_step s.system e h.orderly h.allowed hok.1 hok.2
  have hstay : (∀ i, e ≠ .shut i) → Follows ⟨(System.step s.system e).1, s.nodes⟩ := fun hne =>
    h.advances horderly hallowed hadvances fun n i hn =>
      ⟨rfl, net_step s.system e (h.live n i hn) (hne i)⟩
  cases e with
  | shut i =>
    refine h.advances horderly hallowed hadvances fun n j hn => ?_
    by_cases hlost : (s.nodes n).connection = some i
    · rw [if_pos hlost] at hn
      cases hn
    · rw [if_neg hlost] at hn ⊢
      refine ⟨rfl, net_step s.system _ (h.live n j hn) fun heq => hlost ?_⟩
      cases heq
      exact hn
  | accept => exact hstay nofun
  | packet => exact hstay nofun
  | read => exact hstay nofun

/-- A game server connects anew; it is not registered yet. -/
theorem Follows.connect (h : Follows s) {n socketID clientAddr activeTime : ℕ}
    (hok : networkOk s.system (.accept socketID clientAddr activeTime)) :
    Follows (Cluster.step s (.connect n socketID clientAddr activeTime)).1 := by
  rw [Cluster.step]
  by_cases hfree : (s.nodes n).connection = none ∧
      (s.system.net (loWord socketID)).isNone = true ∧
      ((System.step s.system (.accept socketID clientAddr activeTime)).1.net
        (loWord socketID)).isSome = true
  · rw [if_pos hfree]
    obtain ⟨-, hnone, hsome⟩ := hfree
    have hnone := Option.isNone_iff_eq_none.1 hnone
    obtain ⟨d, hd⟩ := Option.isSome_iff_exists.1 hsome
    have hnext := h.network hok
    -- The new connection is at an index that was free, so it is no room.
    have hnot : ¬Game (System.step s.system (.accept socketID clientAddr activeTime)).1
        (loWord socketID) := by
      have hkind := h.orderly.1.dead _ hnone
      intro hi
      rw [System.step] at hi
      split at hi
      · rename_i hbind
        rw [Sink.onEventTCPNetworkBind] at hbind hi
        by_cases hmax : s.system.sink.maxConnect ≤ loWord socketID
        · rw [if_pos hmax] at hbind
          exact absurd hbind.2 (by simp)
        · rw [if_neg hmax] at hi
          have hself := setBind_self s.system.sink (loWord socketID)
            (fun p => { p with socketID, clientAddr, activeTime })
          have hgame := (congrArg BindParameter.serviceKind hself).symm.trans hi
          exact absurd (hkind.symm.trans hgame) (by decide)
      · exact absurd (hkind.symm.trans hi) (by decide)
    have hset : ∀ n' i, ((Function.update s.nodes n
        { list := (s.nodes n).list, connection := some (loWord socketID) }) n').connection = some i →
        (n' = n ∧ i = loWord socketID) ∨ (n' ≠ n ∧ (s.nodes n').connection = some i) := by
      intro n' i hn'
      by_cases hnn : n' = n
      · rw [hnn, Function.update_self] at hn'
        exact .inl ⟨hnn, (Option.some.inj hn').symm⟩
      · rw [Function.update_of_ne hnn] at hn'
        exact .inr ⟨hnn, hn'⟩
    exact
      { orderly := hnext.orderly
        allowed := hnext.allowed
        live := by
          intro n' i hn'
          rcases hset n' i hn' with ⟨-, rfl⟩ | ⟨-, hn'⟩
          · exact ⟨d, hd⟩
          · exact hnext.live n' i hn'
        processed := by
          intro n' i c hn' hc
          rcases hset n' i hn' with ⟨rfl, -⟩ | ⟨hne, hn'⟩
          · show (Function.update s.nodes n' _ n').processed ≤ _
            rw [Function.update_self]
            exact Nat.zero_le _
          · show (Function.update s.nodes n _ n').processed ≤ _
            rw [Function.update_of_ne hne]
            exact hnext.processed n' i c hn' hc
        lists := by
          intro n' i c hn' hc hi
          rcases hset n' i hn' with ⟨-, rfl⟩ | ⟨hne, hn'⟩
          · exact absurd hi hnot
          · show ((c.sent.drop (Function.update s.nodes n _ n').processed).foldl onServiceInfo
              (Function.update s.nodes n _ n').list).rooms = _
            rw [Function.update_of_ne hne]
            exact hnext.lists n' i c hn' hc hi }
  · rw [if_neg hfree]
    exact h

/-- A game server processes its next message. -/
theorem Follows.process (h : Follows s) (n : ℕ) : Follows (Cluster.step s (.process n)).1 := by
  rw [Cluster.step]
  split
  · exact h
  · rename_i c hbind
    obtain ⟨i, hi, hc⟩ := Option.bind_eq_some_iff.1 hbind
    split
    · exact h
    · rename_i message hmessage
      obtain ⟨hlt, hget⟩ := List.getElem?_eq_some_iff.1 hmessage
      have hdrop : c.sent.drop (s.nodes n).processed =
          message :: c.sent.drop ((s.nodes n).processed + 1) := by
        rw [List.drop_eq_getElem_cons hlt, hget]
      have hself : ∀ j, (s.setNode n { s.nodes n with
          list := onServiceInfo (s.nodes n).list message
          processed := (s.nodes n).processed + 1 }).nodes j = if j = n then { s.nodes n with
            list := onServiceInfo (s.nodes n).list message
            processed := (s.nodes n).processed + 1 } else s.nodes j := by
        intro j
        by_cases hj : j = n
        · rw [if_pos hj, hj]
          exact Function.update_self ..
        · rw [if_neg hj]
          exact Function.update_of_ne hj ..
      exact
        { orderly := h.orderly
          allowed := h.allowed
          live := by
            intro n' j hn'
            rw [hself] at hn'
            by_cases hnn : n' = n
            · rw [if_pos hnn] at hn'
              exact h.live n j hn'
            · rw [if_neg hnn] at hn'
              exact h.live n' j hn'
          processed := by
            intro n' j d hn' hd
            rw [hself] at hn' ⊢
            by_cases hnn : n' = n
            · rw [if_pos hnn] at hn' ⊢
              have hij : j = i := Option.some.inj (hn'.symm.trans hi)
              subst hij
              have hdc : d = c := Option.some.inj (hd.symm.trans hc)
              rw [hdc]
              exact hlt
            · rw [if_neg hnn] at hn' ⊢
              exact h.processed n' j d hn' hd
          lists := by
            intro n' j d hn' hd hgame
            rw [hself] at hn' ⊢
            by_cases hnn : n' = n
            · rw [if_pos hnn] at hn' ⊢
              have hij : j = i := Option.some.inj (hn'.symm.trans hi)
              subst hij
              have hdc : d = c := Option.some.inj (hd.symm.trans hc)
              have hlists := h.lists n j c hi hc hgame
              rw [hdrop, List.foldl_cons] at hlists
              rw [hdc]
              exact hlists
            · rw [if_neg hnn] at hn' ⊢
              exact h.lists n' j d hn' hd hgame }

theorem Follows.disconnect (h : Follows s) (n : ℕ) :
    Follows (Cluster.step s (.disconnect n)).1 := by
  refine h.advances h.orderly h.allowed (.refl _) fun n' i hn' => ?_
  by_cases hnn : n' = n
  · rw [hnn, Function.update_self] at hn'
    cases hn'
  · rw [Function.update_of_ne hnn] at hn' ⊢
    exact ⟨rfl, h.live n' i hn'⟩

theorem follows_step (s : Cluster) (e : ClusterEvent) (h : Follows s) (hok : ReplicaOk s e) :
    Follows (Cluster.step s e).1 := by
  cases e with
  | network e => exact h.network hok
  | connect => exact h.connect hok
  | process n => exact h.process n
  | disconnect n => exact h.disconnect n

theorem follows_start (maxConnect : ℕ) : Follows (Cluster.start maxConnect) where
  orderly := orderly_start maxConnect
  allowed := nofun
  live := nofun
  processed := nofun
  lists := nofun

/-- **The room lists of a run.** Where each connection registers once and
no report changes the robots or the kind of a room, every game server that
has registered and has processed what it was sent lists the directory. -/
theorem replicated_of_along (maxConnect : ℕ) (es : List ClusterEvent)
    (hok : Cluster.step.Along ReplicaOk (Cluster.start maxConnect) es) (n : ℕ) :
    Replicated (Cluster.step.run (Cluster.start maxConnect) (es.take n)).1 :=
  (TotalMachine.inv_prefixes follows_step es _ (follows_start maxConnect) hok n).replicated

/-- A game server registers the room 5 and processes the list. -/
def joins : List ClusterEvent :=
  [.connect 0 65536 0 0, .network (.packet 0),
    .network (.read 0 (.registerServer { serverID := 5, kindID := 1 })),
    .process 0, .process 0, .process 0, .process 0, .process 0]

/-- Another one joins, it reports its players and leaves, and its
connection is used again. -/
def reports : List ClusterEvent :=
  joins ++ [.connect 1 65537 0 0, .network (.packet 1),
    .network (.read 1 (.registerServer { serverID := 6, kindID := 1 })),
    .network (.read 1 (.serverOnLine 4 0)), .process 0, .process 0, .disconnect 1,
    .network (.shut 1), .process 0]

theorem replicated_reports :
    Replicated (Cluster.step.run (Cluster.start 2) (reports.take 17)).1 :=
  replicated_of_along 2 reports (by decide +kernel) 17

/-- The room reports 4 players and 3 robots, and the game server processes
all it is sent. -/
def reportsRobots : List ClusterEvent :=
  joins ++ [.network (.read 0 (.serverOnLine 4 3)), .process 0]

/-- The directory counts the robots and the game server does not. -/
theorem not_replicated_robots :
    ¬∀ (maxConnect : ℕ) (es : List ClusterEvent),
      Replicated (Cluster.step.run (Cluster.start maxConnect) es).1 := by
  intro h
  generalize hs : (Cluster.step.run (Cluster.start 1) reportsRobots).1 = s
  have hrun := h 1 reportsRobots
  rw [hs] at hrun
  have hconn : (s.nodes 0).connection = some 0 := by
    rw [← hs]
    decide +kernel
  have hgame : Game s.system 0 := by
    rw [← hs]
    decide +kernel
  have hsent : (s.system.net 0).map (fun c => c.sent.length) = some (s.nodes 0).processed := by
    rw [← hs]
    decide +kernel
  have hlist : ((s.nodes 0).list.rooms 5).map Listing.androidCount = some 0 := by
    rw [← hs]
    decide +kernel
  have hdir : (s.system.sink.globalInfoManager.rooms 5).map Listing.androidCount = some 3 := by
    rw [← hs]
    decide +kernel
  obtain ⟨c, hc, hlength⟩ := Option.map_eq_some_iff.1 hsent
  rw [hrun 0 0 c hconn hc hgame hlength.symm, hdir] at hlist
  exact absurd hlist (by decide)

end GameServer.CorrespondServer
