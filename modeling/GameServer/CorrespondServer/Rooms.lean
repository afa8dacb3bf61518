import GameServer.CorrespondServer.Model.GlobalInfoManager
/-!
# CorrespondServer — the rooms of the directory

What the directory says of each room (`Manager.room`), and what each call
does to it: only a room that registers, leaves or is modified changes it
(`SameRooms`).
-/

namespace GameServer.CorrespondServer

open Manager

variable {m m' m'' : Manager} {k a : ℕ}

/-- The connection and the entry of a room. -/
def Manager.room (m : Manager) (k : ℕ) : Option (ℕ × TagGameServer) :=
  (m.mapServerID.lookup k).map fun a => ((m.server a).index, (m.server a).gameServer)

/-- The items of the rooms are in use, each under its own identifier. -/
structure Rooms (m : Manager) : Prop where
  servers : m.servers.Holds m.mapServerID.values
  key : ∀ k a, m.mapServerID.lookup k = some a → m.serverIDOf a = k

theorem rooms_empty : Rooms {} where
  servers := List.Perm.refl _
  key := by
    intro k a h
    exact absurd h (by simp [AList.lookup_empty])

theorem room_of_lookup (h : m.mapServerID.lookup k = some a) :
    m.room k = some ((m.server a).index, (m.server a).gameServer) := by
  rw [Manager.room, h]
  rfl

theorem room_eq_none : m.room k = none ↔ m.mapServerID.lookup k = none :=
  Option.map_eq_none_iff

theorem Rooms.serverID (h : Rooms m) {i : ℕ} {g : TagGameServer} (hk : m.room k = some (i, g)) :
    g.serverID = k := by
  obtain ⟨a, ha, heq⟩ := Option.map_eq_some_iff.1 hk
  cases heq
  exact h.key k a ha

theorem Rooms.lookup_inj (h : Rooms m) {l : ℕ} (hk : m.mapServerID.lookup k = some a)
    (hl : m.mapServerID.lookup l = some a) : k = l :=
  (h.key k a hk).symm.trans (h.key l a hl)

/-! ## Calls that leave the rooms as they are -/

/-- The rooms are the same, with the same connections and entries. -/
structure SameRooms (m m' : Manager) : Prop where
  map : m'.mapServerID = m.mapServerID
  free : m'.servers.free = m.servers.free
  size : m'.servers.size = m.servers.size
  index : ∀ a, (m'.server a).index = (m.server a).index
  gameServer : ∀ a, (m'.server a).gameServer = (m.server a).gameServer

theorem SameRooms.refl (m : Manager) : SameRooms m m := ⟨rfl, rfl, rfl, fun _ => rfl, fun _ => rfl⟩

theorem SameRooms.trans (h : SameRooms m m') (h' : SameRooms m' m'') : SameRooms m m'' where
  map := h'.map.trans h.map
  free := h'.free.trans h.free
  size := h'.size.trans h.size
  index a := (h'.index a).trans (h.index a)
  gameServer a := (h'.gameServer a).trans (h.gameServer a)

theorem SameRooms.room (h : SameRooms m m') : m'.room = m.room := by
  funext k
  rw [Manager.room, Manager.room, h.map]
  congr 1
  funext a
  rw [h.index, h.gameServer]

theorem SameRooms.rooms (h : SameRooms m m') (hr : Rooms m) : Rooms m' where
  servers := by
    rw [Pool.Holds, h.map, h.free, h.size]
    exact hr.servers
  key k a ha := by
    rw [serverIDOf, h.gameServer]
    exact hr.key k a (by rwa [← h.map])

/-- A change of an item that leaves its connection and its entry. -/
theorem sameRooms_modify (m : Manager) (a : ℕ) {f : GlobalServerItem → GlobalServerItem}
    (hindex : ∀ i, (f i).index = i.index) (hserver : ∀ i, (f i).gameServer = i.gameServer) :
    SameRooms m { m with servers := m.servers.modify a f } := by
  have hcell : ∀ b, (m.servers.modify a f).cells b = m.server b ∨
      (m.servers.modify a f).cells b = f (m.server b) := by
    intro b
    by_cases hb : b = a
    · subst hb
      exact .inr Pool.modify_cells_self
    · exact .inl (Pool.modify_cells_of_ne hb)
  refine ⟨rfl, rfl, rfl, fun b => ?_, fun b => ?_⟩
  · show ((m.servers.modify a f).cells b).index = _
    rcases hcell b with h | h
    · rw [h]
    · rw [h, hindex]
  · show ((m.servers.modify a f).cells b).gameServer = _
    rcases hcell b with h | h
    · rw [h]
    · rw [h, hserver]

theorem sameRooms_of_eq (hmap : m'.mapServerID = m.mapServerID) (hservers : m'.servers = m.servers) :
    SameRooms m m' := by
  refine ⟨hmap, by rw [hservers], by rw [hservers], fun a => ?_, fun a => ?_⟩
  · rw [server, hservers, server]
  · rw [server, hservers, server]

theorem sameRooms_link (m : Manager) (userID u a : ℕ) : SameRooms m (m.link userID u a) :=
  (sameRooms_modify m a (f := fun i => { i with mapUserID := i.mapUserID.insert userID u })
    (fun _ => rfl) (fun _ => rfl)).trans (sameRooms_of_eq rfl rfl)

theorem sameRooms_activeUserItem (m : Manager) (info : GlobalUserInfo) (serverID : ℕ)
    (memory : Bool) : SameRooms m (m.activeUserItem info serverID memory).2 := by
  rw [activeUserItem]
  split
  · exact .refl m
  · split
    · split
      · exact .refl m
      · have hcreate : SameRooms m (m.createUser info).2 := sameRooms_of_eq rfl rfl
        exact hcreate.trans (sameRooms_link ..)
    · split
      · exact .refl m
      · exact sameRooms_link ..

theorem sameRooms_deleteUserItem (m : Manager) (userID serverID : ℕ) :
    SameRooms m (m.deleteUserItem userID serverID).2 := by
  rw [deleteUserItem]
  split
  · exact .refl m
  · split
    · exact .refl m
    · rename_i a _
      have hroom := sameRooms_modify m a (f := fun i =>
        { i with mapUserID := i.mapUserID.erase userID }) (fun _ => rfl) (fun _ => rfl)
      dsimp only
      split
      · exact hroom.trans (sameRooms_of_eq rfl rfl)
      · exact hroom.trans (sameRooms_of_eq rfl rfl)

theorem sameRooms_setMatch (m : Manager) (gameMatch : GameMatch) :
    SameRooms m (m.setMatch gameMatch) := by
  rw [setMatch]
  split
  · exact .refl m
  · exact sameRooms_modify m _ (fun _ => rfl) (fun _ => rfl)

theorem sameRooms_activePlazaItem (m : Manager) (bindIndex : ℕ) (gamePlaza : GamePlaza)
    (memory : Bool) : SameRooms m (m.activePlazaItem bindIndex gamePlaza memory).2 := by
  rw [activePlazaItem]
  split
  · exact .refl m
  · split
    · exact .refl m
    · exact sameRooms_of_eq rfl rfl

theorem sameRooms_deletePlazaItem (m : Manager) (plazaID : ℕ) :
    SameRooms m (m.deletePlazaItem plazaID).2 := by
  rw [deletePlazaItem]
  split
  · exact .refl m
  · exact sameRooms_of_eq rfl rfl

theorem sameRooms_expelUser (serverID : ℕ) (m : Manager) (entry : Σ _ : ℕ, ℕ) :
    SameRooms m (expelUser serverID m entry) := by
  rw [expelUser]
  split
  · exact sameRooms_of_eq rfl rfl
  · exact sameRooms_of_eq rfl rfl

theorem sameRooms_expelUsers (serverID : ℕ) (entries : List (Σ _ : ℕ, ℕ)) :
    ∀ m : Manager, SameRooms m (entries.foldl (expelUser serverID) m) := by
  induction entries with
  | nil => exact fun m => .refl m
  | cons entry entries ih =>
    intro m
    exact (sameRooms_expelUser serverID m entry).trans (ih _)

/-! ## Calls that change them -/

theorem Rooms.activeServerItem (h : Rooms m) (bindIndex : ℕ) {gameServer : TagGameServer}
    (hnone : m.mapServerID.lookup gameServer.serverID = none) :
    Rooms (m.activeServerItem bindIndex gameServer true).2 ∧
      (m.activeServerItem bindIndex gameServer true).2.room =
        Function.update m.room gameServer.serverID (some (bindIndex, gameServer)) := by
  have hnew := h.servers.create_not_used {}
  have hvalues := Map.values_insert (v := (m.servers.create {}).1) hnone
  have heq : (m.activeServerItem bindIndex gameServer true).2 = { m with
      servers := (m.servers.create {}).2.modify (m.servers.create {}).1 fun i =>
        { i with index := bindIndex, gameServer }
      mapServerID := m.mapServerID.insert gameServer.serverID (m.servers.create {}).1 } := by
    rw [Manager.activeServerItem, hnone]
    simp
  have hother : ∀ b ∈ m.mapServerID.values,
      ((m.activeServerItem bindIndex gameServer true).2.server b) = m.server b := by
    intro b hb
    have hne : b ≠ (m.servers.create {}).1 := fun hbn => hnew (hbn ▸ hb)
    rw [heq, server, Pool.modify_cells_of_ne hne]
    exact h.servers.create_cells hb
  have hself : (m.activeServerItem bindIndex gameServer true).2.room gameServer.serverID =
      some (bindIndex, gameServer) := by
    rw [heq, Manager.room, AList.lookup_insert, Option.map_some, server, Pool.modify_cells_self]
  have hlookup : ∀ k, k ≠ gameServer.serverID →
      (m.activeServerItem bindIndex gameServer true).2.mapServerID.lookup k =
        m.mapServerID.lookup k := by
    intro k hk
    rw [heq]
    exact AList.lookup_insert_ne hk
  refine ⟨⟨?_, fun k b hb => ?_⟩, ?_⟩
  · rw [heq]
    exact h.servers.create.modify.perm (List.Perm.of_eq hvalues.symm)
  · by_cases hk : k = gameServer.serverID
    · subst hk
      rw [room_of_lookup hb] at hself
      exact congrArg (fun p => p.2.serverID) (Option.some.inj hself)
    · rw [hlookup k hk] at hb
      rw [serverIDOf, hother b (Map.mem_values_of_lookup hb)]
      exact h.key k b hb
  · funext k
    by_cases hk : k = gameServer.serverID
    · rw [hk, hself, Function.update_self]
    · rw [Function.update_of_ne hk, Manager.room, Manager.room, hlookup k hk]
      refine Option.map_congr fun b hb => ?_
      rw [hother b (Map.mem_values_of_lookup hb)]

theorem Rooms.deleteServerItem (h : Rooms m) (serverID : ℕ) :
    Rooms (m.deleteServerItem serverID).2 ∧
      (m.deleteServerItem serverID).2.room = Function.update m.room serverID none := by
  cases ha : m.mapServerID.lookup serverID with
  | none =>
    have hroom : m.room serverID = none := room_eq_none.2 ha
    rw [Manager.deleteServerItem, ha, ← hroom, Function.update_eq_self]
    exact ⟨h, rfl⟩
  | some a =>
    have hsame := sameRooms_expelUsers serverID (m.server a).mapUserID.entries m
    have hrooms := hsame.rooms h
    rw [Manager.deleteServerItem, ha]
    dsimp only
    generalize (m.server a).mapUserID.entries.foldl (expelUser serverID) m = n at hsame hrooms
    have hn : n.mapServerID.lookup serverID = some a := by rwa [hsame.map]
    rw [← hsame.room]
    have hother : ∀ k, k ≠ serverID → ∀ b, n.mapServerID.lookup k = some b →
        (n.servers.release a fun i =>
          { i with mapUserID := ∅, index := 0, gameServer := {} }).cells b = n.server b := by
      intro k hk b hb
      exact Pool.release_cells_of_ne fun hba => hk (hrooms.lookup_inj (hba ▸ hb) hn)
    refine ⟨⟨?_, fun k b hb => ?_⟩, ?_⟩
    · exact (hrooms.servers.perm (Map.values_erase hn)).release
    · have hk : k ≠ serverID := by
        intro hk
        subst hk
        exact absurd hb (by simp [freeGlobalServerItem])
      have hb' : n.mapServerID.lookup k = some b := by
        rw [← hb]
        exact (AList.lookup_erase_ne hk).symm
      show ((n.servers.release a _).cells b).gameServer.serverID = k
      rw [hother k hk b hb']
      exact hrooms.key k b hb'
    · funext k
      by_cases hk : k = serverID
      · subst hk
        rw [Function.update_self]
        exact room_eq_none.2 (AList.lookup_erase k n.mapServerID)
      · have hlookup : (n.mapServerID.erase serverID).lookup k = n.mapServerID.lookup k :=
          AList.lookup_erase_ne hk
        rw [Function.update_of_ne hk, Manager.room, Manager.room]
        show (AList.lookup k (n.mapServerID.erase serverID)).map _ = _
        rw [hlookup]
        refine Option.map_congr fun b hb => ?_
        show (((n.servers.release a _).cells b).index, ((n.servers.release a _).cells b).gameServer) = _
        rw [hother k hk b hb]

/-- The entry of a room is changed. -/
theorem Rooms.modify (h : Rooms m) (ha : m.mapServerID.lookup k = some a)
    {f : TagGameServer → TagGameServer} (hf : ∀ g, (f g).serverID = g.serverID) :
    Rooms { m with servers := m.servers.modify a fun i => { i with gameServer := f i.gameServer } } ∧
      Manager.room { m with
          servers := m.servers.modify a fun i => { i with gameServer := f i.gameServer } } =
        Function.update m.room k
          (some ((m.server a).index, f (m.server a).gameServer)) := by
  have hother : ∀ b, b ≠ a → (m.servers.modify a fun i =>
      { i with gameServer := f i.gameServer }).cells b = m.server b :=
    fun b hb => Pool.modify_cells_of_ne hb
  refine ⟨⟨h.servers.modify, fun l b hb => ?_⟩, ?_⟩
  · by_cases hba : b = a
    · subst hba
      rw [serverIDOf, server, Pool.modify_cells_self]
      exact (hf _).trans (h.key l b hb)
    · rw [serverIDOf, server, hother b hba]
      exact h.key l b hb
  · funext l
    by_cases hl : l = k
    · subst hl
      have hself := room_of_lookup (m := { m with
        servers := m.servers.modify a fun i => { i with gameServer := f i.gameServer } }) ha
      rw [Function.update_self, hself, server, Pool.modify_cells_self]
      rfl
    · rw [Function.update_of_ne hl, Manager.room, Manager.room]
      refine Option.map_congr fun b hb => ?_
      rw [server, hother b fun hba => hl (h.lookup_inj hb (hba ▸ ha))]

end GameServer.CorrespondServer
