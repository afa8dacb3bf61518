import GameServer.CorrespondServer.Model.GlobalInfoManager
/-!
# CorrespondServer — the directory

Users and rooms are linked both ways, and what is not in the maps is in the
free lists (`Linked`). Two things are left behind when an item is put away:
the game ID and the nick name of a user who goes with his last room, and
the match of a room. Away from these the directory is right in every state
(`directory_iff`).
-/

namespace GameServer.CorrespondServer

open Manager

variable {m : Manager} {L L' : ℕ → ℕ → ℕ → Prop} {u k a serverID : ℕ}

/-! ## The links -/

/-- The room lists the user under the key. -/
def Lists (m : Manager) (a k u : ℕ) : Prop := (m.server a).mapUserID.lookup k = some u

/-- The items in use and in the free lists, their keys, and the links
between them, where `L` says what the rooms list. -/
structure Linked (m : Manager) (L : ℕ → ℕ → ℕ → Prop) : Prop where
  users : m.users.Holds m.mapUserID.values
  servers : m.servers.Holds m.mapServerID.values
  blankUser : ∀ u ∈ m.users.free, (m.user u).serverItems = []
  blankServer : ∀ a ∈ m.servers.free, (m.server a).mapUserID = ∅
  userKey : ∀ k u, m.mapUserID.lookup k = some u → (m.user u).userID = k
  serverKey : ∀ k a, m.mapServerID.lookup k = some a → m.serverIDOf a = k
  nodup : ∀ u ∈ m.mapUserID.values, (m.user u).serverItems.Nodup
  live : ∀ u ∈ m.mapUserID.values, ∀ a ∈ (m.user u).serverItems, a ∈ m.mapServerID.values
  links : ∀ a ∈ m.mapServerID.values, ∀ k u,
    L a k u ↔ m.mapUserID.lookup k = some u ∧ a ∈ (m.user u).serverItems
  gameID : ∀ g u, m.mapGameID.lookup g = some u →
    (m.user u).gameID = g ∧ u ∈ m.mapUserID.values
  nickName : ∀ n u, m.mapNickName.lookup n = some u →
    (m.user u).nickName = n ∧ u ∈ m.mapUserID.values

/-- Every user is in a room. -/
def Seated (m : Manager) : Prop := ∀ u ∈ m.mapUserID.values, (m.user u).serverItems ≠ []

theorem Linked.congr (h : Linked m L)
    (hL : ∀ a ∈ m.mapServerID.values, ∀ k u, L' a k u ↔ L a k u) : Linked m L' :=
  { h with links := fun a ha k u => (hL a ha k u).trans (h.links a ha k u) }

theorem Linked.user_key (h : Linked m L) (hu : u ∈ m.mapUserID.values) :
    m.mapUserID.lookup (m.user u).userID = some u := by
  obtain ⟨k, hk⟩ := Map.mem_values.1 hu
  rwa [h.userKey k u hk]

theorem Linked.server_unique (h : Linked m L) {b : ℕ} (ha : a ∈ m.mapServerID.values)
    (hb : b ∈ m.mapServerID.values) (heq : m.serverIDOf a = m.serverIDOf b) : a = b := by
  obtain ⟨k, hk⟩ := Map.mem_values.1 ha
  obtain ⟨l, hl⟩ := Map.mem_values.1 hb
  have hkl : k = l := by rw [← h.serverKey k a hk, ← h.serverKey l b hl, heq]
  rw [hkl, hl] at hk
  exact (Option.some.inj hk).symm

theorem eraseP_congr {α : Type*} {p q : α → Bool} :
    ∀ {l : List α}, (∀ b ∈ l, p b = q b) → l.eraseP p = l.eraseP q := by
  intro l
  induction l with
  | nil => intro _; rfl
  | cons b l ih =>
    intro h
    rw [List.eraseP_cons, List.eraseP_cons, h b List.mem_cons_self,
      ih fun c hc => h c (List.mem_cons_of_mem _ hc)]

/-- The entry that is removed by its identifier is the room itself. -/
theorem Linked.eraseP_eq (h : Linked m L) (hu : u ∈ m.mapUserID.values)
    (ha : a ∈ (m.user u).serverItems) :
    (m.user u).serverItems.eraseP (fun b => m.serverIDOf b == m.serverIDOf a) =
      (m.user u).serverItems.erase a := by
  rw [List.erase_eq_eraseP' a]
  refine eraseP_congr fun b hb => ?_
  have hiff : m.serverIDOf b = m.serverIDOf a ↔ b = a :=
    ⟨fun heq => h.server_unique (h.live u hu b hb) (h.live u hu a ha) heq, fun heq => by rw [heq]⟩
  simp [hiff]

/-! ## Cells -/

theorem removeServer_user_self (m : Manager) (u serverID : ℕ) :
    (m.removeServer u serverID).user u = { m.user u with
      serverItems := (m.user u).serverItems.eraseP fun a => m.serverIDOf a == serverID } := by
  rw [user, removeServer, Pool.modify_cells_self]
  rfl

theorem removeServer_user_of_ne {v : ℕ} (hv : v ≠ u) :
    (m.removeServer u serverID).user v = m.user v := by
  rw [user, removeServer, Pool.modify_cells_of_ne hv]
  rfl

theorem freeGlobalUserItem_user_self (m : Manager) (u : ℕ) :
    ((m.freeGlobalUserItem u).user u).serverItems = [] := by
  rw [user, freeGlobalUserItem, Pool.release_cells_self]

theorem freeGlobalUserItem_user_of_ne {v : ℕ} (hv : v ≠ u) :
    (m.freeGlobalUserItem u).user v = m.user v :=
  Pool.release_cells_of_ne (p := m.users) (a := u) hv

/-! ## Users leave -/

section

variable (h : Linked m L) (hu : m.mapUserID.lookup k = some u)
include h hu

/-- The rooms of one user may change, with what they list. -/
theorem Linked.modifyUser {f : GlobalUserItem → GlobalUserItem}
    (hinfo : (f (m.user u)).toGlobalUserInfo = (m.user u).toGlobalUserInfo)
    (hnodup : (f (m.user u)).serverItems.Nodup)
    (hlive : ∀ b ∈ (f (m.user u)).serverItems, b ∈ m.mapServerID.values)
    (hself : ∀ b ∈ m.mapServerID.values, ∀ l, L' b l u ↔ l = k ∧ b ∈ (f (m.user u)).serverItems)
    (hother : ∀ b ∈ m.mapServerID.values, ∀ l v, v ≠ u → (L' b l v ↔ L b l v)) :
    Linked { m with users := m.users.modify u f } L' := by
  have huser := Map.mem_values_of_lookup hu
  have hcell : ({ m with users := m.users.modify u f } : Manager).user u = f (m.user u) :=
    Pool.modify_cells_self
  have hcells : ∀ v, v ≠ u → ({ m with users := m.users.modify u f } : Manager).user v = m.user v :=
    fun v hv => Pool.modify_cells_of_ne (p := m.users) hv
  have hinfos : ∀ v, (({ m with users := m.users.modify u f } : Manager).user v).toGlobalUserInfo =
      (m.user v).toGlobalUserInfo := by
    intro v
    by_cases hv : v = u
    · rw [hv, hcell, hinfo]
    · rw [hcells v hv]
  exact
    { h with
      users := h.users
      blankUser := by
        intro v hv
        rw [hcells v fun heq => h.users.not_free huser (heq ▸ hv)]
        exact h.blankUser v hv
      userKey := by
        intro l v hl
        rw [hinfos v]
        exact h.userKey l v hl
      nodup := by
        intro v hv
        by_cases hvu : v = u
        · rwa [hvu, hcell]
        · rw [hcells v hvu]
          exact h.nodup v hv
      live := by
        intro v hv b hb
        by_cases hvu : v = u
        · rw [hvu, hcell] at hb
          exact hlive b hb
        · rw [hcells v hvu] at hb
          exact h.live v hv b hb
      links := by
        intro b hb l v
        by_cases hvu : v = u
        · rw [hvu, hcell, hself b hb]
          refine and_congr_left fun _ => ⟨fun hl => hl ▸ hu, fun hl => ?_⟩
          exact Map.key_unique h.users.nodup_used hl hu
        · rw [hcells v hvu, hother b hb l v hvu]
          exact h.links b hb l v
      gameID := by
        intro g v hg
        rw [hinfos v]
        exact h.gameID g v hg
      nickName := by
        intro n v hn
        rw [hinfos v]
        exact h.nickName n v hn }

theorem Linked.lists_iff (ha : a ∈ m.mapServerID.values) (l : ℕ) :
    L a l u ↔ l = k ∧ a ∈ (m.user u).serverItems := by
  rw [h.links a ha l u]
  refine and_congr_left fun _ => ⟨fun hl => ?_, fun hl => hl ▸ hu⟩
  exact Map.key_unique h.users.nodup_used hl hu

theorem Linked.removeServer (ha : a ∈ (m.user u).serverItems) :
    Linked (m.removeServer u (m.serverIDOf a))
      (fun b l v => L b l v ∧ ¬(b = a ∧ l = k)) := by
  have huser := Map.mem_values_of_lookup hu
  have hitems := h.eraseP_eq huser ha
  refine h.modifyUser hu rfl ?_ ?_ (fun b hb l => ?_) fun b hb l v hv => ?_
  · rw [hitems]
    exact (h.nodup u huser).erase a
  · rw [hitems]
    exact fun b hb => h.live u huser b (List.mem_of_mem_erase hb)
  · rw [hitems, (h.nodup u huser).mem_erase_iff, h.lists_iff hu hb]
    tauto
  · refine and_iff_left_of_imp ?_
    rintro hl ⟨-, rfl⟩
    have hv' := ((h.links b hb l v).1 hl).1
    rw [hu] at hv'
    exact hv (Option.some.inj hv').symm

/-- A user in no room is put away; no index may point to him any more. -/
theorem Linked.freeUser (hnone : (m.user u).serverItems = []) {games : Map ℕ ℕ}
    {names : Map String ℕ}
    (hgames : ∀ g v, games.lookup g = some v → m.mapGameID.lookup g = some v ∧ v ≠ u)
    (hnames : ∀ n v, names.lookup n = some v → m.mapNickName.lookup n = some v ∧ v ≠ u) :
    Linked (Manager.freeGlobalUserItem { m with
      mapUserID := m.mapUserID.erase k, mapGameID := games, mapNickName := names } u) L := by
  have hother : ∀ v, v ≠ u → (Manager.freeGlobalUserItem { m with
      mapUserID := m.mapUserID.erase k, mapGameID := games, mapNickName := names } u).user v =
        m.user v := fun v hv => freeGlobalUserItem_user_of_ne hv
  have hlookup : ∀ l v, AList.lookup l (m.mapUserID.erase k) = some v →
      v ≠ u ∧ m.mapUserID.lookup l = some v := by
    intro l v hl
    obtain ⟨hne, hl⟩ := Map.lookup_erase_eq_some hl
    refine ⟨fun hv => hne ?_, hl⟩
    exact Map.key_unique h.users.nodup_used (hv ▸ hl) hu
  have hvalues : ∀ v, v ∈ Map.values (m.mapUserID.erase k) → v ≠ u ∧ v ∈ m.mapUserID.values := by
    intro v hv
    obtain ⟨l, hl⟩ := Map.mem_values.1 hv
    exact ⟨(hlookup l v hl).1, Map.mem_values_of_lookup (hlookup l v hl).2⟩
  have hstay : ∀ l v, m.mapUserID.lookup l = some v → v ≠ u →
      AList.lookup l (m.mapUserID.erase k) = some v := by
    intro l v hl hv
    rw [AList.lookup_erase_ne, hl]
    rintro rfl
    rw [hu] at hl
    exact hv (Option.some.inj hl).symm
  exact
    { users := (h.users.perm (Map.values_erase hu)).release
      servers := h.servers
      blankUser := by
        intro v hv
        by_cases hvu : v = u
        · rw [hvu, freeGlobalUserItem_user_self]
        · rw [hother v hvu]
          exact h.blankUser v ((List.mem_cons.1 hv).resolve_left hvu)
      blankServer := h.blankServer
      userKey := by
        intro l v hl
        obtain ⟨hv, hl⟩ := hlookup l v hl
        rw [hother v hv]
        exact h.userKey l v hl
      serverKey := h.serverKey
      nodup := by
        intro v hv
        obtain ⟨hvu, hv⟩ := hvalues v hv
        rw [hother v hvu]
        exact h.nodup v hv
      live := by
        intro v hv b hb
        obtain ⟨hvu, hv⟩ := hvalues v hv
        rw [hother v hvu] at hb
        exact h.live v hv b hb
      links := by
        intro b hb l v
        rw [h.links b hb l v]
        constructor
        · rintro ⟨hl, hmem⟩
          have hvu : v ≠ u := by
            rintro rfl
            rw [hnone] at hmem
            cases hmem
          exact ⟨hstay l v hl hvu, by rw [hother v hvu]; exact hmem⟩
        · rintro ⟨hl, hmem⟩
          obtain ⟨hvu, hl⟩ := hlookup l v hl
          exact ⟨hl, by rwa [hother v hvu] at hmem⟩
      gameID := by
        intro g v hg
        obtain ⟨hg, hvu⟩ := hgames g v hg
        obtain ⟨hid, hv⟩ := h.gameID g v hg
        rw [hother v hvu]
        obtain ⟨l, hl⟩ := Map.mem_values.1 hv
        exact ⟨hid, Map.mem_values_of_lookup (hstay l v hl hvu)⟩
      nickName := by
        intro n v hn
        obtain ⟨hn, hvu⟩ := hnames n v hn
        obtain ⟨hid, hv⟩ := h.nickName n v hn
        rw [hother v hvu]
        obtain ⟨l, hl⟩ := Map.mem_values.1 hv
        exact ⟨hid, Map.mem_values_of_lookup (hstay l v hl hvu)⟩ }

end

/-- What a room lists may change without the links. -/
theorem Linked.modifyServer (h : Linked m L) {f : GlobalServerItem → GlobalServerItem}
    (ha : a ∈ m.mapServerID.values)
    (hf : ∀ i, (f i).gameServer.serverID = i.gameServer.serverID) :
    Linked { m with servers := m.servers.modify a f } L := by
  have hkey : ∀ b, ((m.servers.modify a f).cells b).gameServer.serverID = m.serverIDOf b := by
    intro b
    by_cases hb : b = a
    · rw [hb, Pool.modify_cells_self, hf]
      rfl
    · rw [Pool.modify_cells_of_ne hb]
      rfl
  exact
    { h with
      blankServer := by
        intro b hb
        have hne : b ≠ a := fun heq => h.servers.not_free ha (heq ▸ hb)
        show ((m.servers.modify a f).cells b).mapUserID = ∅
        rw [Pool.modify_cells_of_ne hne]
        exact h.blankServer b hb
      serverKey := fun l b hl => (hkey b).trans (h.serverKey l b hl) }

/-! ## Users enter -/

theorem Linked.link (h : Linked m L) (hu : m.mapUserID.lookup k = some u)
    (ha : a ∈ m.mapServerID.values) (hnot : a ∉ (m.user u).serverItems) :
    Linked (m.link k u a) (fun b l v => L b l v ∨ b = a ∧ l = k ∧ v = u) := by
  have huser := Map.mem_values_of_lookup hu
  refine (h.modifyServer (f := fun i => { i with mapUserID := i.mapUserID.insert k u })
    ha fun _ => rfl).modifyUser (f := fun i => { i with serverItems := i.serverItems ++ [a] })
    hu rfl ?_ (fun b hb => ?_) (fun b hb l => ?_) fun b _ l v hv => ?_
  · exact List.nodup_append.2 ⟨h.nodup u huser, List.nodup_singleton a,
      fun b hb c hc => by rw [List.mem_singleton.1 hc]; exact fun hbc => hnot (hbc ▸ hb)⟩
  · obtain hb | hb := List.mem_append.1 hb
    · exact h.live u huser b hb
    · exact List.mem_singleton.1 hb ▸ ha
  · rw [h.lists_iff hu hb, List.mem_append, List.mem_singleton]
    tauto
  · exact or_iff_left fun heq => hv heq.2.2

/-- A new user, in no room yet. -/
theorem Linked.createUser (h : Linked m L) {info : GlobalUserInfo}
    (hnone : m.mapUserID.lookup info.userID = none) :
    Linked (m.createUser info).2 L ∧
      ((m.createUser info).2.user (m.createUser info).1).serverItems = [] ∧
      ∀ v ∈ m.mapUserID.values, (m.createUser info).2.user v = m.user v := by
  have hfresh := h.users.create_not_used newUserItem
  have hblank : ((m.users.create newUserItem).2.cells (m.users.create newUserItem).1).serverItems =
      [] := by
    rw [Pool.create]
    cases hfree : m.users.free with
    | nil => simp [newUserItem]
    | cons b free => exact h.blankUser b (by rw [hfree]; exact List.mem_cons_self)
  have hsub : ∀ v ∈ (m.users.create newUserItem).2.free, v ∈ m.users.free := by
    rw [Pool.create]
    cases hfree : m.users.free with
    | nil => exact fun v hv => hv
    | cons b free => exact fun v hv => List.mem_cons_of_mem b hv
  have hself : (m.createUser info).2.user (m.createUser info).1 = { toGlobalUserInfo := info } := by
    rw [user, Manager.createUser, Pool.modify_cells_self, hblank]
  have hother : ∀ v ∈ m.mapUserID.values, (m.createUser info).2.user v = m.user v := by
    intro v hv
    have hne : v ≠ (m.users.create newUserItem).1 := fun heq => hfresh (heq ▸ hv)
    rw [user, Manager.createUser, Pool.modify_cells_of_ne hne]
    exact h.users.create_cells hv
  have hvalues : (m.createUser info).2.mapUserID.values =
      (m.createUser info).1 :: m.mapUserID.values := Map.values_insert hnone
  have hlookup : ∀ l v, (m.createUser info).2.mapUserID.lookup l = some v →
      l = info.userID ∧ v = (m.createUser info).1 ∨ m.mapUserID.lookup l = some v := by
    intro l v hl
    exact (Map.lookup_insert_eq_some hl).imp id And.right
  refine ⟨?_, by rw [hself], hother⟩
  exact
    { users := by
        rw [hvalues]
        exact h.users.create.modify
      servers := h.servers
      blankUser := by
        intro v hv
        have hnot : v ≠ (m.users.create newUserItem).1 := fun heq =>
          h.users.create.not_free List.mem_cons_self (heq ▸ hv)
        have hold := hsub v hv
        rw [user, Manager.createUser, Pool.modify_cells_of_ne hnot, Pool.create]
        cases hfree : m.users.free with
        | nil =>
          rw [hfree] at hold
          cases hold
        | cons b free => exact h.blankUser v hold
      blankServer := h.blankServer
      userKey := by
        intro l v hl
        obtain ⟨rfl, rfl⟩ | hl := hlookup l v hl
        · rw [hself]
        · rw [hother v (Map.mem_values_of_lookup hl)]
          exact h.userKey l v hl
      serverKey := h.serverKey
      nodup := by
        intro v hv
        rw [hvalues] at hv
        obtain rfl | hv := List.mem_cons.1 hv
        · rw [hself]
          exact List.nodup_nil
        · rw [hother v hv]
          exact h.nodup v hv
      live := by
        intro v hv b hb
        rw [hvalues] at hv
        obtain rfl | hv := List.mem_cons.1 hv
        · rw [hself] at hb
          cases hb
        · rw [hother v hv] at hb
          exact h.live v hv b hb
      links := by
        intro b hb l v
        rw [h.links b hb l v]
        constructor
        · rintro ⟨hl, hmem⟩
          refine ⟨?_, by rwa [hother v (Map.mem_values_of_lookup hl)]⟩
          refine (AList.lookup_insert_ne ?_).trans hl
          rintro rfl
          rw [hnone] at hl
          cases hl
        · rintro ⟨hl, hmem⟩
          obtain ⟨rfl, rfl⟩ | hl := hlookup l v hl
          · rw [hself] at hmem
            cases hmem
          · exact ⟨hl, by rwa [hother v (Map.mem_values_of_lookup hl)] at hmem⟩
      gameID := by
        intro g v hg
        rw [hvalues]
        obtain ⟨rfl, rfl⟩ | ⟨-, hg⟩ := Map.lookup_insert_eq_some hg
        · exact ⟨congrArg (·.gameID) hself, List.mem_cons_self⟩
        · obtain ⟨hid, hv⟩ := h.gameID g v hg
          exact ⟨by rw [hother v hv, hid], List.mem_cons_of_mem _ hv⟩
      nickName := by
        intro n v hn
        rw [hvalues]
        obtain ⟨rfl, rfl⟩ | ⟨-, hn⟩ := Map.lookup_insert_eq_some hn
        · exact ⟨congrArg (·.nickName) hself, List.mem_cons_self⟩
        · obtain ⟨hid, hv⟩ := h.nickName n v hn
          exact ⟨by rw [hother v hv, hid], List.mem_cons_of_mem _ hv⟩ }

/-! ## Rooms come and go -/

/-- A room that lists nobody is put away. -/
theorem Linked.freeServer (h : Linked m L) (ha : m.mapServerID.lookup serverID = some a)
    (hnone : ∀ k u, ¬L a k u) :
    Linked (Manager.freeGlobalServerItem
      { m with mapServerID := m.mapServerID.erase serverID } a) L := by
  have hkeep : ∀ b, b ∈ m.mapServerID.values → b ≠ a →
      b ∈ Map.values (m.mapServerID.erase serverID) := by
    intro b hb hne
    exact (List.mem_cons.1 ((Map.values_erase ha).mem_iff.1 hb)).resolve_left hne
  have hlookup : ∀ l b, AList.lookup l (m.mapServerID.erase serverID) = some b →
      b ≠ a ∧ m.mapServerID.lookup l = some b := by
    intro l b hl
    obtain ⟨hne, hl⟩ := Map.lookup_erase_eq_some hl
    exact ⟨fun hb => hne (Map.key_unique h.servers.nodup_used (hb ▸ hl) ha), hl⟩
  have hother : ∀ b, b ≠ a → (Manager.freeGlobalServerItem
      { m with mapServerID := m.mapServerID.erase serverID } a).server b = m.server b := by
    intro b hb
    exact Pool.release_cells_of_ne (p := m.servers) hb
  exact
    { users := h.users
      servers := (h.servers.perm (Map.values_erase ha)).release
      blankUser := h.blankUser
      blankServer := by
        intro b hb
        by_cases hba : b = a
        · rw [hba, server, Manager.freeGlobalServerItem, Pool.release_cells_self]
        · rw [hother b hba]
          exact h.blankServer b ((List.mem_cons.1 hb).resolve_left hba)
      userKey := h.userKey
      serverKey := by
        intro l b hl
        obtain ⟨hba, hl⟩ := hlookup l b hl
        rw [serverIDOf, hother b hba]
        exact h.serverKey l b hl
      nodup := h.nodup
      live := by
        intro u hu b hb
        refine hkeep b (h.live u hu b hb) ?_
        rintro rfl
        obtain ⟨k, hk⟩ := Map.mem_values.1 hu
        exact hnone k u ((h.links b (Map.mem_values_of_lookup ha) k u).2 ⟨hk, hb⟩)
      links := by
        intro b hb
        obtain ⟨l, hl⟩ := Map.mem_values.1 hb
        exact h.links b (Map.mem_values_of_lookup (hlookup l b hl).2)
      gameID := h.gameID
      nickName := h.nickName }

/-- A new room lists nobody. -/
theorem Linked.activeServer (h : Linked m (Lists m)) {bindIndex : ℕ} {gameServer : TagGameServer}
    (hnone : m.mapServerID.lookup gameServer.serverID = none) (servers : Pool GlobalServerItem)
    (hservers : servers = (m.servers.create {}).2.modify (m.servers.create {}).1 fun i =>
      { i with index := bindIndex, gameServer }) :
    Linked { m with servers, mapServerID :=
        m.mapServerID.insert gameServer.serverID (m.servers.create {}).1 }
      (Lists { m with servers, mapServerID :=
        m.mapServerID.insert gameServer.serverID (m.servers.create {}).1 }) := by
  have hfresh := h.servers.create_not_used {}
  have hvalues := Map.values_insert (v := (m.servers.create {}).1) hnone
  have hother : ∀ b ∈ m.mapServerID.values, servers.cells b = m.server b := by
    intro b hb
    have hne : b ≠ (m.servers.create {}).1 := fun heq => hfresh (heq ▸ hb)
    rw [hservers, Pool.modify_cells_of_ne hne]
    exact h.servers.create_cells hb
  have hself : (servers.cells (m.servers.create {}).1).mapUserID = ∅ ∧
      (servers.cells (m.servers.create {}).1).gameServer = gameServer := by
    rw [hservers, Pool.modify_cells_self, Pool.create]
    cases hfree : m.servers.free with
    | nil => simp
    | cons b free => exact ⟨h.blankServer b (by rw [hfree]; exact List.mem_cons_self), rfl⟩
  exact
    { users := h.users
      servers := by
        rw [hvalues, hservers]
        exact h.servers.create.modify
      blankUser := h.blankUser
      blankServer := by
        intro b hb
        have hb' : b ∈ (m.servers.create {}).2.free := by rw [hservers] at hb; exact hb
        have hne : b ≠ (m.servers.create {}).1 := fun heq =>
          h.servers.create.not_free List.mem_cons_self (heq ▸ hb')
        show (servers.cells b).mapUserID = ∅
        rw [hservers, Pool.modify_cells_of_ne hne]
        rw [Pool.create] at hb' ⊢
        cases hfree : m.servers.free with
        | nil =>
          rw [hfree] at hb'
          cases hb'
        | cons c free =>
          rw [hfree] at hb'
          exact h.blankServer b (by rw [hfree]; exact List.mem_cons_of_mem c hb')
      userKey := h.userKey
      serverKey := by
        intro l b hl
        show (servers.cells b).gameServer.serverID = l
        obtain ⟨rfl, rfl⟩ | ⟨-, hl⟩ := Map.lookup_insert_eq_some hl
        · rw [hself.2]
        · rw [hother b (Map.mem_values_of_lookup hl)]
          exact h.serverKey l b hl
      nodup := h.nodup
      live := by
        intro u hu b hb
        rw [hvalues]
        exact List.mem_cons_of_mem _ (h.live u hu b hb)
      links := by
        intro b hb k u
        rw [hvalues] at hb
        show (servers.cells b).mapUserID.lookup k = some u ↔ _
        obtain rfl | hb := List.mem_cons.1 hb
        · rw [hself.1]
          refine ⟨(by simp), fun hu => absurd (h.live u ?_ _ hu.2) hfresh⟩
          exact Map.mem_values_of_lookup hu.1
        · rw [hother b hb]
          exact h.links b hb k u
      gameID := h.gameID
      nickName := h.nickName }

/-! ## A room that goes with its users -/

/-- No index points to a user for whom this is the last room. -/
def Unindexed (m : Manager) (a u : ℕ) : Prop :=
  (m.user u).serverItems = [a] →
    m.mapGameID.lookup (m.user u).gameID ≠ some u ∧
      m.mapNickName.lookup (m.user u).nickName ≠ some u

theorem expelUser_user_of_ne {entry : Σ _ : ℕ, ℕ} {v : ℕ} (hv : v ≠ entry.2) :
    (expelUser serverID m entry).user v = m.user v := by
  rw [expelUser]
  split
  · rw [freeGlobalUserItem_user_of_ne hv]
    exact removeServer_user_of_ne hv
  · exact removeServer_user_of_ne hv

theorem expelUser_frame (serverID : ℕ) (m : Manager) (entry : Σ _ : ℕ, ℕ) :
    (expelUser serverID m entry).servers = m.servers ∧
      (expelUser serverID m entry).mapServerID = m.mapServerID ∧
      (expelUser serverID m entry).mapGameID = m.mapGameID ∧
      (expelUser serverID m entry).mapNickName = m.mapNickName := by
  rw [expelUser]
  split <;> exact ⟨rfl, rfl, rfl, rfl⟩

theorem Linked.expelUser (h : Linked m L) (hseated : Seated m)
    (hu : m.mapUserID.lookup k = some u) (ha : a ∈ (m.user u).serverItems)
    (hun : Unindexed m a u) :
    Linked (expelUser (m.serverIDOf a) m ⟨k, u⟩) (fun b l v => L b l v ∧ ¬(b = a ∧ l = k)) ∧
      Seated (Manager.expelUser (m.serverIDOf a) m ⟨k, u⟩) ∧
      ∀ l v, m.mapUserID.lookup l = some v → v ≠ u →
        (Manager.expelUser (m.serverIDOf a) m ⟨k, u⟩).mapUserID.lookup l = some v := by
  have huser := Map.mem_values_of_lookup hu
  have hremove := h.removeServer hu ha
  have hself := removeServer_user_self m u (m.serverIDOf a)
  rw [h.eraseP_eq huser ha] at hself
  have hitems : ((m.removeServer u (m.serverIDOf a)).user u).serverItems =
      (m.user u).serverItems.erase a := by rw [hself]
  rw [Manager.expelUser]
  split
  · rename_i hempty
    -- this was the last room of the user
    have hlast : (m.user u).serverItems = [a] := by
      have hlen := List.length_erase_of_mem ha
      rw [← hitems, show ((m.removeServer u (m.serverIDOf a)).user u).serverItems = [] from hempty]
        at hlen
      have hpos := List.length_pos_of_mem ha
      have hone : (m.user u).serverItems.length = 1 := by
        simp only [List.length_nil] at hlen
        omega
      obtain ⟨b, hb⟩ := List.length_eq_one_iff.1 hone
      rw [hb] at ha ⊢
      rw [List.mem_singleton.1 ha]
    obtain ⟨hgame, hnick⟩ := hun hlast
    refine ⟨hremove.freeUser hu hempty (fun g v hg => ⟨hg, ?_⟩) (fun n v hn => ⟨hn, ?_⟩),
      fun v hv => ?_, fun l v hl hv => ?_⟩
    · rintro rfl
      rw [(h.gameID g v hg).1] at hgame
      exact hgame hg
    · rintro rfl
      rw [(h.nickName n v hn).1] at hnick
      exact hnick hn
    · obtain ⟨l, hl⟩ := Map.mem_values.1 hv
      obtain ⟨hne, hl⟩ := Map.lookup_erase_eq_some hl
      have hvu : v ≠ u := fun heq => hne (Map.key_unique h.users.nodup_used (heq ▸ hl) hu)
      rw [freeGlobalUserItem_user_of_ne hvu]
      show ((m.removeServer u (m.serverIDOf a)).user v).serverItems ≠ []
      rw [removeServer_user_of_ne hvu]
      exact hseated v (Map.mem_values_of_lookup hl)
    · refine (AList.lookup_erase_ne ?_).trans hl
      rintro rfl
      rw [hu] at hl
      exact hv (Option.some.inj hl).symm
  · rename_i hne
    refine ⟨hremove, fun v hv => ?_, fun l v hl _ => hl⟩
    by_cases hvu : v = u
    · rw [hvu]
      exact hne
    · rw [removeServer_user_of_ne hvu]
      exact hseated v hv

/-- What the rooms list, when of one of them only some entries are left. -/
def Remaining (L : ℕ → ℕ → ℕ → Prop) (a : ℕ) (rest : List (Σ _ : ℕ, ℕ)) (b k u : ℕ) : Prop :=
  if b = a then Sigma.mk k u ∈ rest else L b k u

theorem Linked.expelUsers : ∀ (rest : List (Σ _ : ℕ, ℕ)) (m : Manager),
    Linked m (Remaining L a rest) → Seated m → m.mapServerID.lookup serverID = some a →
    rest.NodupKeys → (∀ e ∈ rest, Unindexed m a e.2) →
    Linked (rest.foldl (Manager.expelUser serverID) m) (Remaining L a []) ∧
      Seated (rest.foldl (Manager.expelUser serverID) m) ∧
      (rest.foldl (Manager.expelUser serverID) m).mapServerID = m.mapServerID ∧
      (rest.foldl (Manager.expelUser serverID) m).servers = m.servers := by
  intro rest
  induction rest with
  | nil => exact fun m h hseated _ _ _ => ⟨h, hseated, rfl, rfl⟩
  | cons e rest ih =>
    obtain ⟨k, u⟩ := e
    intro m h hseated ha hnodup hun
    have hlive := Map.mem_values_of_lookup ha
    have hid : m.serverIDOf a = serverID := h.serverKey serverID a ha
    have hlinks := fun l v => h.links a hlive l v
    simp only [Remaining, if_pos] at hlinks
    obtain ⟨hu, hmem⟩ := (hlinks k u).1 List.mem_cons_self
    have hone := h.expelUser hseated hu hmem (hun ⟨k, u⟩ List.mem_cons_self)
    rw [hid] at hone
    obtain ⟨hnext, hseated', -⟩ := hone
    obtain ⟨hservers, hmap, hgame, hnick⟩ := expelUser_frame serverID m ⟨k, u⟩
    have hkeys := List.nodupKeys_cons.1 hnodup
    have hother : ∀ e ∈ rest, e.2 ≠ u := by
      intro e he heq
      have hl := ((hlinks e.1 e.2).1 (List.mem_cons_of_mem _ he)).1
      rw [heq] at hl
      have hk := Map.key_unique h.users.nodup_used hl hu
      have hin : e.1 ∈ rest.keys := List.mem_keys_of_mem he
      exact hkeys.1 (hk ▸ hin)
    have hrest := ih (Manager.expelUser serverID m ⟨k, u⟩) (hnext.congr fun b _ l v => ?_) hseated'
      (by rw [hmap]; exact ha) hkeys.2 fun e he => ?_
    · rw [hmap, hservers] at hrest
      exact hrest
    · simp only [Remaining]
      by_cases hb : b = a
      · simp only [hb, true_and, List.mem_cons, Sigma.mk.injEq, heq_eq_eq]
        constructor
        · intro hin
          have hl : l ∈ rest.keys := List.mem_keys_of_mem hin
          exact ⟨.inr hin, fun hlk => hkeys.1 (hlk ▸ hl)⟩
        · rintro ⟨⟨hl, -⟩ | hin, hne⟩
          · exact absurd hl hne
          · exact hin
      · rw [if_neg hb, if_neg hb]
        exact ⟨fun hl => ⟨hl, fun heq => hb heq.1⟩, fun hl => hl.1⟩
    · rw [Unindexed, expelUser_user_of_ne (hother e he), hgame, hnick]
      exact hun e (List.mem_cons_of_mem _ he)

/-- **A room goes**, when nobody leaves his last room with it whom an index
points to. -/
theorem Linked.deleteServer (h : Linked m (Lists m)) (hseated : Seated m)
    (ha : m.mapServerID.lookup serverID = some a)
    (hun : ∀ k u, Lists m a k u → Unindexed m a u) :
    Linked (m.deleteServerItem serverID).2 (Lists (m.deleteServerItem serverID).2) ∧
      Seated (m.deleteServerItem serverID).2 := by
  have hentries : ∀ k u, Sigma.mk k u ∈ (m.server a).mapUserID.entries ↔ Lists m a k u :=
    fun k u => AList.mem_lookup_iff.symm
  obtain ⟨hall, hseated', hmap, hservers⟩ := Linked.expelUsers (L := Lists m)
    (m.server a).mapUserID.entries m
    (h.congr fun b _ k u => by
      simp only [Remaining]
      split
      · rename_i hb
        rw [hentries, hb]
      · exact Iff.rfl)
    hseated ha (m.server a).mapUserID.nodupKeys
    fun e he => hun e.1 e.2 ((hentries e.1 e.2).1 he)
  rw [deleteServerItem, ha]
  refine ⟨(hall.freeServer (by rw [hmap]; exact ha) fun k u hl => ?_).congr fun b hb k u => ?_,
    hseated'⟩
  · simp only [Remaining, if_pos, List.not_mem_nil] at hl
  · -- the other rooms list whom they listed
    obtain ⟨l, hl⟩ := Map.mem_values.1 hb
    obtain ⟨hne, hl⟩ := Map.lookup_erase_eq_some hl
    rw [hmap] at hl
    have hba : b ≠ a := fun heq => hne (Map.key_unique h.servers.nodup_used (heq ▸ hl) ha)
    have hcell : (m.deleteServerItem serverID).2.server b = m.server b := by
      rw [deleteServerItem, ha]
      simp only
      rw [server, freeGlobalServerItem, Pool.release_cells_of_ne hba, hservers]
      rfl
    rw [deleteServerItem, ha] at hcell
    rw [Remaining, if_neg hba, Lists, hcell]
    rfl

/-! ## All at once -/

theorem foldl_freeGlobalUserItem : ∀ (l : List ℕ) (m : Manager), m.users.Holds l →
    (∀ u ∈ m.users.free, (m.user u).serverItems = []) →
    (l.foldl freeGlobalUserItem m).users.Holds [] ∧
      (∀ u ∈ (l.foldl freeGlobalUserItem m).users.free,
        ((l.foldl freeGlobalUserItem m).user u).serverItems = []) ∧
      (l.foldl freeGlobalUserItem m).servers = m.servers ∧
      (l.foldl freeGlobalUserItem m).mapServerID = m.mapServerID := by
  intro l
  induction l with
  | nil => exact fun m h hblank => ⟨h, hblank, rfl, rfl⟩
  | cons u l ih =>
    intro m h hblank
    refine ih (m.freeGlobalUserItem u) h.release fun v hv => ?_
    by_cases hvu : v = u
    · rw [hvu, freeGlobalUserItem_user_self]
    · rw [freeGlobalUserItem_user_of_ne hvu]
      exact hblank v ((List.mem_cons.1 hv).resolve_left hvu)

theorem foldl_freeGlobalPlazaItem : ∀ (l : List ℕ) (m : Manager),
    (l.foldl freeGlobalPlazaItem m).users = m.users ∧
      (l.foldl freeGlobalPlazaItem m).servers = m.servers ∧
      (l.foldl freeGlobalPlazaItem m).mapServerID = m.mapServerID := by
  intro l
  induction l with
  | nil => exact fun m => ⟨rfl, rfl, rfl⟩
  | cons p l ih => exact fun m => ih (m.freeGlobalPlazaItem p)

theorem foldl_freeGlobalServerItem : ∀ (l : List ℕ) (m : Manager), m.servers.Holds l →
    (∀ a ∈ m.servers.free, (m.server a).mapUserID = ∅) →
    (l.foldl freeGlobalServerItem m).servers.Holds [] ∧
      (∀ a ∈ (l.foldl freeGlobalServerItem m).servers.free,
        ((l.foldl freeGlobalServerItem m).server a).mapUserID = ∅) ∧
      (l.foldl freeGlobalServerItem m).users = m.users := by
  intro l
  induction l with
  | nil => exact fun m h hblank => ⟨h, hblank, rfl⟩
  | cons a l ih =>
    intro m h hblank
    refine ih (m.freeGlobalServerItem a) h.release fun b hb => ?_
    rw [server, freeGlobalServerItem]
    by_cases hba : b = a
    · rw [hba, Pool.release_cells_self]
    · rw [Pool.release_cells_of_ne hba]
      exact hblank b ((List.mem_cons.1 hb).resolve_left hba)

theorem linked_of_empty (hID : m.mapUserID = ∅) (hserver : m.mapServerID = ∅)
    (hgame : m.mapGameID = ∅) (hnick : m.mapNickName = ∅) (husers : m.users.Holds [])
    (hservers : m.servers.Holds []) (hblankUser : ∀ u ∈ m.users.free, (m.user u).serverItems = [])
    (hblankServer : ∀ a ∈ m.servers.free, (m.server a).mapUserID = ∅) :
    Linked m (Lists m) ∧ Seated m := by
  have hvalues : ∀ u, u ∉ m.mapUserID.values := by simp [hID, Map.values_empty]
  exact ⟨
    { users := by rwa [hID]
      servers := by rwa [hserver]
      blankUser := hblankUser
      blankServer := hblankServer
      userKey := by simp [hID]
      serverKey := by simp [hserver]
      nodup := fun u hu => absurd hu (hvalues u)
      live := fun u hu => absurd hu (hvalues u)
      links := by simp [hserver, Map.values_empty]
      gameID := by simp [hgame]
      nickName := by simp [hnick] }, fun u hu => absurd hu (hvalues u)⟩

/-- **Everything is put away.** -/
theorem Linked.resetData (h : Linked m (Lists m)) :
    Linked m.resetData (Lists m.resetData) ∧ Seated m.resetData := by
  obtain ⟨husers, hblankUser, hservers₁, hmap₁⟩ :=
    foldl_freeGlobalUserItem m.mapUserID.values m h.users h.blankUser
  generalize hm₁ : m.mapUserID.values.foldl freeGlobalUserItem m = m₁ at *
  obtain ⟨husers₂, hservers₂, hmap₂⟩ := foldl_freeGlobalPlazaItem m₁.mapPlazaID.values m₁
  generalize hm₂ : m₁.mapPlazaID.values.foldl freeGlobalPlazaItem m₁ = m₂ at *
  have hheld : m₂.servers.Holds m₂.mapServerID.values := by
    rw [hservers₂, hservers₁, hmap₂, hmap₁]
    exact h.servers
  obtain ⟨hservers₃, hblankServer, husers₃⟩ := foldl_freeGlobalServerItem m₂.mapServerID.values m₂
    hheld fun a ha => by
      rw [hservers₂, hservers₁] at ha
      rw [server, hservers₂, hservers₁]
      exact h.blankServer a ha
  have hreset : m.resetData = { m₂.mapServerID.values.foldl freeGlobalServerItem m₂ with
      mapUserID := ∅, mapGameID := ∅, mapPlazaID := ∅, mapServerID := ∅, mapNickName := ∅ } := by
    rw [Manager.resetData, hm₁, hm₂]
  have hcells : (m₂.mapServerID.values.foldl freeGlobalServerItem m₂).users = m₁.users :=
    husers₃.trans husers₂
  rw [hreset]
  refine linked_of_empty rfl rfl rfl rfl ?_ hservers₃ (fun u hu => ?_) hblankServer
  · rw [hcells]
    exact husers
  · show ((m₂.mapServerID.values.foldl freeGlobalServerItem m₂).users.cells u).serverItems = []
    rw [hcells]
    exact hblankUser u (by rw [← hcells]; exact hu)

/-! ## Calls -/

theorem Linked.deleteUser (h : Linked m (Lists m)) (hseated : Seated m) (userID serverID : ℕ) :
    Linked (m.deleteUserItem userID serverID).2 (Lists (m.deleteUserItem userID serverID).2) ∧
      Seated (m.deleteUserItem userID serverID).2 := by
  rw [deleteUserItem]
  cases hu : m.mapUserID.lookup userID with
  | none => exact ⟨h, hseated⟩
  | some u =>
    simp only
    cases hfind : (m.user u).serverItems.find? fun a => m.serverIDOf a == serverID with
    | none => exact ⟨h, hseated⟩
    | some a =>
      simp only
      have ha := List.mem_of_find?_eq_some hfind
      obtain rfl : m.serverIDOf a = serverID := by simpa using List.find?_some hfind
      have huser := Map.mem_values_of_lookup hu
      have hlive := h.live u huser a ha
      -- the room forgets the user, and the user the room
      generalize hm₁ : ({ m with servers := m.servers.modify a fun i =>
        { i with mapUserID := i.mapUserID.erase userID } } : Manager) = m₁
      have h₁ : Linked m₁ (Lists m) := by
        rw [← hm₁]
        exact h.modifyServer hlive fun _ => rfl
      have hid : m₁.serverIDOf a = m.serverIDOf a := by
        rw [← hm₁, serverIDOf, server, Pool.modify_cells_self]
        rfl
      have hu₁ : m₁.mapUserID.lookup userID = some u := by rw [← hm₁]; exact hu
      have ha₁ : a ∈ (m₁.user u).serverItems := by rw [← hm₁]; exact ha
      have h₂ := h₁.removeServer hu₁ ha₁
      rw [hid] at h₂
      have hlists : ∀ b ∈ m₁.mapServerID.values, ∀ l v,
          (m₁.server b).mapUserID.lookup l = some v ↔ Lists m b l v ∧ ¬(b = a ∧ l = userID) := by
        intro b _ l v
        rw [← hm₁, server, Lists]
        by_cases hb : b = a
        · rw [hb, Pool.modify_cells_self]
          by_cases hl : l = userID
          · subst hl
            simp [AList.lookup_erase]
          · simp [hl, AList.lookup_erase_ne hl, server]
        · rw [Pool.modify_cells_of_ne hb]
          simp [hb, server]
      have hother : ∀ v, v ≠ u → (m₁.removeServer u (m.serverIDOf a)).user v = m.user v := by
        intro v hv
        rw [removeServer_user_of_ne hv, ← hm₁]
        rfl
      split
      · rename_i hempty
        refine ⟨(h₂.freeUser hu₁ hempty (fun g v hg => ?_) fun n v hn => ?_).congr hlists,
          fun v hv => ?_⟩
        · obtain ⟨hne, hg⟩ := Map.lookup_erase_eq_some hg
          exact ⟨hg, fun hv => hne (by rw [← (h₂.gameID g v hg).1, hv])⟩
        · obtain ⟨hne, hn⟩ := Map.lookup_erase_eq_some hn
          exact ⟨hn, fun hv => hne (by rw [← (h₂.nickName n v hn).1, hv])⟩
        · obtain ⟨l, hl⟩ := Map.mem_values.1 hv
          obtain ⟨hne, hl⟩ := Map.lookup_erase_eq_some hl
          have hvu : v ≠ u := fun heq => hne (Map.key_unique h₁.users.nodup_used (heq ▸ hl) hu₁)
          rw [freeGlobalUserItem_user_of_ne hvu]
          show ((m₁.removeServer u (m.serverIDOf a)).user v).serverItems ≠ []
          rw [hother v hvu]
          rw [Manager.removeServer, ← hm₁] at hl
          exact hseated v (Map.mem_values_of_lookup hl)
      · rename_i hne
        refine ⟨h₂.congr hlists, fun v hv => ?_⟩
        by_cases hvu : v = u
        · rw [hvu]
          exact hne
        · rw [hother v hvu]
          rw [Manager.removeServer, ← hm₁] at hv
          exact hseated v hv

theorem lists_link (m : Manager) (k u a b l v : ℕ) (hnone : ¬∃ w, Lists m a k w) :
    Lists (m.link k u a) b l v ↔ Lists m b l v ∨ b = a ∧ l = k ∧ v = u := by
  rw [Lists, server, Manager.link, Lists]
  by_cases hb : b = a
  · rw [hb, Pool.modify_cells_self]
    by_cases hl : l = k
    · subst hl
      have hno : ¬(m.server a).mapUserID.lookup l = some v := fun hv => hnone ⟨v, hv⟩
      simp only [AList.lookup_insert, true_and, hno, false_or, Option.some.injEq]
      exact eq_comm
    · simp [hl, AList.lookup_insert_ne hl, server]
  · rw [Pool.modify_cells_of_ne hb]
    simp [hb, server]

theorem seated_link (userID a : ℕ)
    (hseated : ∀ v ∈ m.mapUserID.values, v ≠ u → (m.user v).serverItems ≠ []) :
    Seated (m.link userID u a) := by
  intro v hv
  rw [user, Manager.link]
  by_cases hvu : v = u
  · rw [hvu, Pool.modify_cells_self]
    simp
  · rw [Pool.modify_cells_of_ne hvu]
    exact hseated v hv hvu

theorem Linked.activeUser (h : Linked m (Lists m)) (hseated : Seated m) (info : GlobalUserInfo)
    (serverID : ℕ) (memory : Bool) :
    Linked (m.activeUserItem info serverID memory).2
        (Lists (m.activeUserItem info serverID memory).2) ∧
      Seated (m.activeUserItem info serverID memory).2 := by
  rw [activeUserItem]
  cases ha : m.mapServerID.lookup serverID with
  | none => exact ⟨h, hseated⟩
  | some a =>
    have hlive := Map.mem_values_of_lookup ha
    cases hu : m.mapUserID.lookup info.userID with
    | none =>
      simp only
      split
      · exact ⟨h, hseated⟩
      · obtain ⟨hnew, hitems, hold⟩ := h.createUser hu
        have hlookup : (m.createUser info).2.mapUserID.lookup info.userID =
            some (m.createUser info).1 := AList.lookup_insert _
        have hno : ¬∃ w, Lists (m.createUser info).2 a info.userID w := by
          rintro ⟨w, hw⟩
          obtain ⟨hl, -⟩ := (h.links a hlive info.userID w).1 hw
          rw [hu] at hl
          cases hl
        refine ⟨(hnew.link hlookup hlive (by rw [hitems]; exact List.not_mem_nil)).congr
          fun b _ l v => lists_link _ _ _ _ b l v hno, seated_link _ _ fun v hv hne => ?_⟩
        have hvalues : (m.createUser info).2.mapUserID.values =
            (m.createUser info).1 :: m.mapUserID.values := Map.values_insert hu
        rw [hvalues] at hv
        have hv := (List.mem_cons.1 hv).resolve_left hne
        rw [hold v hv]
        exact hseated v hv
    | some u =>
      simp only
      split
      · exact ⟨h, hseated⟩
      · rename_i hany
        have hid := h.serverKey serverID a ha
        have hnot : a ∉ (m.user u).serverItems := fun hin =>
          hany (List.any_eq_true.2 ⟨a, hin, by simp [hid]⟩)
        have hno : ¬∃ w, Lists m a info.userID w := by
          rintro ⟨w, hw⟩
          obtain ⟨hl, hin⟩ := (h.links a hlive info.userID w).1 hw
          rw [hu] at hl
          cases hl
          exact hnot hin
        exact ⟨(h.link hu hlive hnot).congr fun b _ l v => lists_link _ _ _ _ b l v hno,
          seated_link _ _ fun v hv _ => hseated v hv⟩

theorem Linked.activeServerItem (h : Linked m (Lists m)) (bindIndex : ℕ)
    (gameServer : TagGameServer) (memory : Bool) :
    Linked (m.activeServerItem bindIndex gameServer memory).2
      (Lists (m.activeServerItem bindIndex gameServer memory).2) := by
  rw [Manager.activeServerItem]
  cases hnone : m.mapServerID.lookup gameServer.serverID with
  | some a => exact h
  | none =>
    simp only
    split
    · exact h
    · exact h.activeServer hnone _ rfl

theorem Linked.setMatch (h : Linked m (Lists m)) (gameMatch : GameMatch) :
    Linked (m.setMatch gameMatch) (Lists (m.setMatch gameMatch)) := by
  rw [Manager.setMatch]
  cases ha : m.mapServerID.lookup gameMatch.serverID with
  | none => exact h
  | some a =>
    refine (h.modifyServer (f := fun i => { i with gameMatch }) (Map.mem_values_of_lookup ha)
      fun _ => rfl).congr fun b _ k u => ?_
    rw [Lists, server]
    by_cases hb : b = a
    · rw [hb, Pool.modify_cells_self]
      rfl
    · rw [Pool.modify_cells_of_ne hb]
      rfl

theorem seated_activeServerItem (hseated : Seated m) (bindIndex : ℕ) (gameServer : TagGameServer)
    (memory : Bool) : Seated (m.activeServerItem bindIndex gameServer memory).2 := by
  rw [Manager.activeServerItem]
  split
  · exact hseated
  · split <;> exact hseated

theorem seated_setMatch (hseated : Seated m) (gameMatch : GameMatch) :
    Seated (m.setMatch gameMatch) := by
  rw [Manager.setMatch]
  split <;> exact hseated

/-! ## The directory -/

/-- The directory is right: the links go both ways, the users in the map
are those in a room, a search by game ID or nick name finds a user in a
room who has it, and every item is in the maps or in its free list. -/
structure Directory (m : Manager) : Prop where
  links : ∀ u ∈ m.mapUserID.values, ∀ a ∈ m.mapServerID.values,
    Lists m a (m.user u).userID u ↔ a ∈ (m.user u).serverItems
  present : ∀ u, u ∈ m.mapUserID.values ↔ ∃ a ∈ m.mapServerID.values, ∃ k, Lists m a k u
  gameID : ∀ g u, g ≠ 0 → m.searchUserItemByGameID g = some u →
    (m.user u).gameID = g ∧ ∃ a ∈ m.mapServerID.values, ∃ k, Lists m a k u
  nickName : ∀ n u, m.searchUserItemByNickName n = some u →
    (m.user u).nickName = n ∧ ∃ a ∈ m.mapServerID.values, ∃ k, Lists m a k u
  users : m.users.Holds m.mapUserID.values
  notFree : ∀ u ∈ m.users.free, u ∉ m.mapGameID.values ∧ u ∉ m.mapNickName.values
  servers : m.servers.Holds m.mapServerID.values

/-- A room that is activated carries no match. -/
def NoFormerMatch (m : Manager) : ManagerCall → Prop
  | .activeServerItem bindIndex gameServer memory =>
      m.mapServerID.lookup gameServer.serverID = none → ∀ a,
        (m.activeServerItem bindIndex gameServer memory).2.mapServerID.lookup
            gameServer.serverID = some a →
          ((m.activeServerItem bindIndex gameServer memory).2.server a).gameMatch = {}
  | _ => True

/-- What the directory needs of a call: a room that goes leaves nobody
without a room whom an index points to, and the item that a new room takes
from the free list had no match. -/
def DirectoryOk (m : Manager) : ManagerCall → Prop
  | .deleteServerItem serverID => ∀ a, m.mapServerID.lookup serverID = some a →
      ∀ k u, Lists m a k u → Unindexed m a u
  | .activeServerItem _ gameServer _ => m.mapServerID.lookup gameServer.serverID = none →
      ∀ a rest, m.servers.free = a :: rest → (m.server a).gameMatch = {}
  | _ => True

/-- What every state has. -/
def Ordered (m : Manager) : Prop := Linked m (Lists m) ∧ Seated m

theorem Ordered.present (h : Ordered m) :
    u ∈ m.mapUserID.values ↔ ∃ a ∈ m.mapServerID.values, ∃ k, Lists m a k u := by
  obtain ⟨hlinked, hseated⟩ := h
  constructor
  · intro hu
    obtain ⟨a, ha⟩ := List.exists_mem_of_ne_nil _ (hseated u hu)
    have hlive := hlinked.live u hu a ha
    exact ⟨a, hlive, _, (hlinked.links a hlive _ u).2 ⟨hlinked.user_key hu, ha⟩⟩
  · rintro ⟨a, ha, k, hk⟩
    exact Map.mem_values_of_lookup ((hlinked.links a ha k u).1 hk).1

theorem Ordered.directory (h : Ordered m) : Directory m where
  links := by
    intro u hu a ha
    rw [h.1.links a ha]
    exact and_iff_right (h.1.user_key hu)
  present u := h.present
  gameID := by
    intro g u _ hg
    obtain ⟨hid, hu⟩ := h.1.gameID g u hg
    exact ⟨hid, h.present.1 hu⟩
  nickName := by
    intro n u hn
    obtain ⟨hid, hu⟩ := h.1.nickName n u hn
    exact ⟨hid, h.present.1 hu⟩
  users := h.1.users
  notFree := by
    intro u hu
    refine ⟨fun hg => ?_, fun hn => ?_⟩
    · obtain ⟨g, hg⟩ := Map.mem_values.1 hg
      exact h.1.users.not_free (h.1.gameID g u hg).2 hu
    · obtain ⟨n, hn⟩ := Map.mem_values.1 hn
      exact h.1.users.not_free (h.1.nickName n u hn).2 hu
  servers := h.1.servers

/-- The item of a new room, and its match. -/
theorem activeServerItem_match (hnone : m.mapServerID.lookup gameServer.serverID = none)
    (bindIndex : ℕ) (memory : Bool) :
    NoFormerMatch m (.activeServerItem bindIndex gameServer memory) ↔
      ∀ a rest, m.servers.free = a :: rest → (m.server a).gameMatch = {} := by
  simp only [NoFormerMatch, hnone, true_imp_iff]
  rw [Manager.activeServerItem, hnone]
  cases hfree : m.servers.free with
  | nil =>
    refine iff_of_true (fun a ha => ?_) nofun
    cases memory with
    | false =>
      simp only [List.isEmpty_nil, Bool.not_false, Bool.and_self, if_true] at ha
      rw [hnone] at ha
      cases ha
    | true =>
      simp only [List.isEmpty_nil, Bool.not_true, Bool.and_false, Bool.false_eq_true, if_false,
        Pool.create, hfree] at ha ⊢
      rw [AList.lookup_insert] at ha
      cases ha
      simp [server]
  | cons b free =>
    simp only [List.isEmpty_cons, Bool.false_and, Bool.false_eq_true, if_false, Pool.create, hfree,
      AList.lookup_insert, Option.some.injEq, forall_eq', server, Pool.modify_cells_self,
      List.cons.injEq, and_imp]
    exact ⟨fun h a rest hb _ => hb ▸ h, fun h => h b free rfl rfl⟩

theorem foldl_expelUser_indexes : ∀ (rest : List (Σ _ : ℕ, ℕ)) (m : Manager),
    (rest.foldl (expelUser serverID) m).mapGameID = m.mapGameID ∧
      (rest.foldl (expelUser serverID) m).mapNickName = m.mapNickName := by
  intro rest
  induction rest with
  | nil => exact fun m => ⟨rfl, rfl⟩
  | cons e rest ih =>
    intro m
    obtain ⟨-, -, hgame, hnick⟩ := expelUser_frame serverID m e
    rw [List.foldl_cons, ← hgame, ← hnick]
    exact ih _

theorem expelUser_free {entry : Σ _ : ℕ, ℕ} (h : u ∈ m.users.free) :
    u ∈ (expelUser serverID m entry).users.free := by
  rw [expelUser]
  split
  · exact List.mem_cons_of_mem _ h
  · exact h

/-- A user who leaves his last room with it is put away. -/
theorem foldl_expelUser_free : ∀ (rest : List (Σ _ : ℕ, ℕ)) (m : Manager),
    (u ∈ m.users.free ∨ (∃ k, Sigma.mk k u ∈ rest) ∧ (m.user u).serverItems = [a]) →
    m.servers.cells a = (m.server a) → m.serverIDOf a = serverID →
    u ∈ (rest.foldl (expelUser serverID) m).users.free := by
  intro rest
  induction rest with
  | nil =>
    rintro m (h | ⟨⟨k, hk⟩, -⟩) - -
    · exact h
    · cases hk
  | cons e rest ih =>
    intro m h _ hid
    have hframe := expelUser_frame serverID m e
    have hid' : (expelUser serverID m e).serverIDOf a = serverID := by
      rw [serverIDOf, server, hframe.1]
      exact hid
    refine ih _ ?_ rfl hid'
    obtain h | ⟨⟨k, hk⟩, hitems⟩ := h
    · exact .inl (expelUser_free h)
    · by_cases he : e.2 = u
      · left
        rw [expelUser, he]
        have hempty : ((m.removeServer u serverID).user u).serverItems = [] := by
          rw [removeServer_user_self]
          simp [hitems, hid]
        simp only [if_pos hempty]
        exact List.mem_cons_self
      · right
        refine ⟨⟨k, (List.mem_cons.1 hk).resolve_left fun heq => he (heq ▸ rfl)⟩, ?_⟩
        rw [expelUser_user_of_ne (Ne.symm he)]
        exact hitems

/-- A call that meets the condition keeps the order and brings no former
match. -/
theorem ordered_step (m : Manager) (e : ManagerCall) (h : Ordered m) (hok : DirectoryOk m e) :
    NoFormerMatch m e ∧ Ordered (managerStep m e).1 := by
  cases e with
  | activeServerItem bindIndex gameServer memory =>
    refine ⟨fun hnone => ?_, h.1.activeServerItem bindIndex gameServer memory,
      seated_activeServerItem h.2 bindIndex gameServer memory⟩
    exact (activeServerItem_match hnone bindIndex memory).2 (hok hnone) hnone
  | deleteServerItem serverID =>
    refine ⟨trivial, ?_⟩
    cases ha : m.mapServerID.lookup serverID with
    | none =>
      rw [managerStep, deleteServerItem, ha]
      exact h
    | some a => exact h.1.deleteServer h.2 ha (hok a ha)
  | activeUserItem info serverID memory =>
    exact ⟨trivial, h.1.activeUser h.2 info serverID memory⟩
  | deleteUserItem userID serverID => exact ⟨trivial, h.1.deleteUser h.2 userID serverID⟩
  | resetData => exact ⟨trivial, h.1.resetData⟩
  | setMatch gameMatch => exact ⟨trivial, h.1.setMatch gameMatch, seated_setMatch h.2 gameMatch⟩

theorem directoryOk_of_step (m : Manager) (e : ManagerCall) (h : Ordered m)
    (hmatch : NoFormerMatch m e) (hnext : Directory (managerStep m e).1) : DirectoryOk m e := by
  cases e with
  | activeServerItem bindIndex gameServer memory =>
    exact fun hnone => (activeServerItem_match hnone bindIndex memory).1 hmatch
  | deleteServerItem serverID =>
    intro a ha k u hk hlast
    have hfree : u ∈ (managerStep m (.deleteServerItem serverID)).1.users.free := by
      rw [managerStep, deleteServerItem, ha]
      exact foldl_expelUser_free _ m (.inr ⟨⟨k, AList.mem_lookup_iff.1 hk⟩, hlast⟩) rfl
        (h.1.serverKey serverID a ha)
    have hmaps : (managerStep m (.deleteServerItem serverID)).1.mapGameID = m.mapGameID ∧
        (managerStep m (.deleteServerItem serverID)).1.mapNickName = m.mapNickName := by
      rw [managerStep, deleteServerItem, ha]
      exact foldl_expelUser_indexes _ m
    obtain ⟨hgame, hnick⟩ := hnext.notFree u hfree
    rw [hmaps.1] at hgame
    rw [hmaps.2] at hnick
    exact ⟨fun hg => hgame (Map.mem_values_of_lookup hg),
      fun hn => hnick (Map.mem_values_of_lookup hn)⟩
  | _ => trivial

theorem ordered_empty : Ordered {} :=
  linked_of_empty rfl rfl rfl rfl (List.Perm.refl _) (List.Perm.refl _) nofun nofun

/-- **The directory of the coordination server.** From an empty manager the
directory is right in every state of a run, and no new room carries a
former match, exactly when every call meets the condition. -/
theorem directory_iff (es : List ManagerCall) :
    ((∀ n, Directory (managerStep.run {} (es.take n)).1) ∧
        managerStep.Along NoFormerMatch {} es) ↔
      managerStep.Along DirectoryOk {} es :=
  TotalMachine.prefixes_iff (fun _ h => h.directory) ordered_step directoryOk_of_step es {}
    ordered_empty

/-! ## A room that goes -/

/-- Room 1 goes with its only user, and the user's item is handed out again
in room 2. -/
def lastRoom : List ManagerCall :=
  [.activeServerItem 0 { serverID := 1 } true, .activeUserItem ⟨7, 70, "u", 0, 0, 0⟩ 1 true,
    .setMatch { serverID := 1, matchID := 5 }, .deleteServerItem 1,
    .activeServerItem 0 { serverID := 2 } true, .activeUserItem ⟨8, 80, "v", 0, 0, 0⟩ 2 true]

/-- The game ID of the user who left finds somebody else, and the new room
has the match of the old one. -/
theorem directory_stale :
    let m := (managerStep.run {} lastRoom).1
    m.searchUserItemByGameID 70 = some 0 ∧ (m.user 0).gameID = 80 ∧
      (m.server 0).gameServer.serverID = 2 ∧ (m.server 0).gameMatch.matchID = 5 ∧
      ¬∀ n, Directory (managerStep.run {} (lastRoom.take n)).1 := by
  have hsearch : (managerStep.run {} lastRoom).1.searchUserItemByGameID 70 = some 0 := by
    decide +kernel
  have hgame : ((managerStep.run {} lastRoom).1.user 0).gameID = 80 := by decide +kernel
  refine ⟨hsearch, hgame, by decide +kernel, by decide +kernel, fun h => ?_⟩
  have hid := ((h 6).gameID 70 0 (by decide) hsearch).1
  exact absurd hid (by decide)

end GameServer.CorrespondServer
