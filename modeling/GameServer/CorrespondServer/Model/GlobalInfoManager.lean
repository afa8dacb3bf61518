import GameServer.Common.Pool
import GameServer.Common.Run
/-!
# CorrespondServer — `CGlobalInfoManager`

The directory of the coordination server: users, plazas and rooms, each an
item of a pool. Pointers are addresses in the pools, and a map is read in
the order of its list. An allocation may fail (`memory`).
-/

namespace GameServer.CorrespondServer

/-! ## Items -/

structure GlobalUserInfo where
  userID : ℕ
  gameID : ℕ
  nickName : String
  gender : ℕ := 0
  memberOrder : ℕ := 0
  masterOrder : ℕ := 0

structure GlobalUserItem extends GlobalUserInfo where
  serverItems : List ℕ := []

structure GamePlaza where
  plazaID : ℕ := 0
  serverName : String := ""
  serverAddr : String := ""

structure GlobalPlazaItem where
  index : ℕ := 0
  gamePlaza : GamePlaza := {}

structure TagGameServer where
  kindID : ℕ := 0
  nodeID : ℕ := 0
  sortID : ℕ := 0
  serverID : ℕ := 0
  serverKind : ℕ := 0
  serverType : ℕ := 0
  serverPort : ℕ := 0
  cellScore : ℤ := 0
  enterScore : ℤ := 0
  serverRule : ℕ := 0
  onLineCount : ℕ := 0
  androidCount : ℕ := 0
  fullCount : ℕ := 0
  serverAddr : String := ""
  serverName : String := ""
  deriving DecidableEq

/-- `tagGameMatch`, zero as `ZeroMemory` leaves it; times are numbers. -/
structure GameMatch where
  serverID : ℕ := 0
  matchID : ℕ := 0
  matchNO : ℕ := 0
  matchType : ℕ := 0
  matchName : String := ""
  memberOrder : ℕ := 0
  matchFeeType : ℕ := 0
  matchFee : ℤ := 0
  startUserCount : ℕ := 0
  matchPlayCount : ℕ := 0
  rewardCount : ℕ := 0
  matchStartTime : ℕ := 0
  matchEndTime : ℕ := 0
  deriving DecidableEq

structure GlobalServerItem where
  index : ℕ := 0
  gameServer : TagGameServer := {}
  gameMatch : GameMatch := {}
  mapUserID : Map ℕ ℕ := ∅

def GlobalServerItem.isMatchServer (i : GlobalServerItem) : Bool :=
  i.gameMatch.serverID == i.gameServer.serverID && i.gameMatch.matchID != 0

def newUserItem : GlobalUserItem := { userID := 0, gameID := 0, nickName := "" }

/-- `CGlobalInfoManager`. -/
structure Manager where
  mapUserID : Map ℕ ℕ := ∅
  mapPlazaID : Map ℕ ℕ := ∅
  mapServerID : Map ℕ ℕ := ∅
  mapGameID : Map ℕ ℕ := ∅
  mapNickName : Map String ℕ := ∅
  users : Pool GlobalUserItem := { cells := fun _ => newUserItem }
  plazas : Pool GlobalPlazaItem := { cells := fun _ => {} }
  servers : Pool GlobalServerItem := { cells := fun _ => {} }

namespace Manager

def user (m : Manager) (u : ℕ) : GlobalUserItem := m.users.cells u

def server (m : Manager) (a : ℕ) : GlobalServerItem := m.servers.cells a

def serverIDOf (m : Manager) (a : ℕ) : ℕ := (m.server a).gameServer.serverID

/-! ## Releases -/

def freeGlobalUserItem (m : Manager) (u : ℕ) : Manager :=
  { m with users := m.users.release u fun i =>
      { i with userID := 0, gameID := 0, nickName := "", serverItems := [] } }

def freeGlobalPlazaItem (m : Manager) (p : ℕ) : Manager :=
  { m with plazas := m.plazas.release p fun _ => {} }

def freeGlobalServerItem (m : Manager) (a : ℕ) : Manager :=
  { m with servers := m.servers.release a fun i =>
      { i with mapUserID := ∅, index := 0, gameServer := {} } }

def resetData (m : Manager) : Manager :=
  let m := m.mapUserID.values.foldl freeGlobalUserItem m
  let m := m.mapPlazaID.values.foldl freeGlobalPlazaItem m
  let m := m.mapServerID.values.foldl freeGlobalServerItem m
  { m with mapUserID := ∅, mapGameID := ∅, mapPlazaID := ∅, mapServerID := ∅, mapNickName := ∅ }

/-! ## Users -/

/-- 删除关联, in the user item: the first entry of the room. -/
def removeServer (m : Manager) (u serverID : ℕ) : Manager :=
  { m with users := m.users.modify u fun i =>
      { i with serverItems := i.serverItems.eraseP fun a => m.serverIDOf a == serverID } }

/-- 释放索引. -/
def removeIndexes (m : Manager) (userID u : ℕ) : Manager :=
  { m with
    mapUserID := m.mapUserID.erase userID
    mapGameID := m.mapGameID.erase (m.user u).gameID
    mapNickName := m.mapNickName.erase (m.user u).nickName }

def deleteUserItem (m : Manager) (userID serverID : ℕ) : Bool × Manager :=
  match m.mapUserID.lookup userID with
  | none => (false, m)
  | some u =>
      match (m.user u).serverItems.find? fun a => m.serverIDOf a == serverID with
      | none => (false, m)
      | some a =>
          let m := { m with servers := m.servers.modify a fun i =>
            { i with mapUserID := i.mapUserID.erase userID } }
          let m := m.removeServer u serverID
          if (m.user u).serverItems = [] then
            (true, (m.removeIndexes userID u).freeGlobalUserItem u)
          else (true, m)

/-- 设置关联. -/
def link (m : Manager) (userID u a : ℕ) : Manager :=
  { m with
    users := m.users.modify u fun i => { i with serverItems := i.serverItems ++ [a] }
    servers := m.servers.modify a fun i => { i with mapUserID := i.mapUserID.insert userID u } }

/-- 创建用户 and its indices. -/
def createUser (m : Manager) (info : GlobalUserInfo) : ℕ × Manager :=
  let (u, users) := m.users.create newUserItem
  let users := users.modify u fun i => { i with toGlobalUserInfo := info }
  (u, { m with
    users
    mapNickName := m.mapNickName.insert info.nickName u
    mapUserID := m.mapUserID.insert info.userID u
    mapGameID := m.mapGameID.insert info.gameID u })

def activeUserItem (m : Manager) (info : GlobalUserInfo) (serverID : ℕ) (memory : Bool) :
    Bool × Manager :=
  match m.mapServerID.lookup serverID with
  | none => (false, m)
  | some a =>
      match m.mapUserID.lookup info.userID with
      | none =>
          if m.users.free.isEmpty && !memory then (false, m)
          else
            let (u, m) := m.createUser info
            (true, m.link info.userID u a)
      | some u =>
          if (m.user u).serverItems.any fun a => m.serverIDOf a == serverID then (false, m)
          else (true, m.link info.userID u a)

/-! ## Plazas -/

def deletePlazaItem (m : Manager) (plazaID : ℕ) : Bool × Manager :=
  match m.mapPlazaID.lookup plazaID with
  | none => (false, m)
  | some p => (true, { m with mapPlazaID := m.mapPlazaID.erase plazaID }.freeGlobalPlazaItem p)

def activePlazaItem (m : Manager) (bindIndex : ℕ) (gamePlaza : GamePlaza) (memory : Bool) :
    Bool × Manager :=
  match m.mapPlazaID.lookup gamePlaza.plazaID with
  | some _ => (false, m)
  | none =>
      if m.plazas.free.isEmpty && !memory then (false, m)
      else
        let (p, plazas) := m.plazas.create {}
        (true, { m with
          plazas := plazas.modify p fun _ => ⟨bindIndex, gamePlaza⟩
          mapPlazaID := m.mapPlazaID.insert gamePlaza.plazaID p })

/-! ## Rooms -/

/-- 删除用户 of a room that goes: the game ID and the nick name stay in
their indices. -/
def expelUser (serverID : ℕ) (m : Manager) (entry : Σ _ : ℕ, ℕ) : Manager :=
  let m := m.removeServer entry.2 serverID
  if (m.user entry.2).serverItems = [] then
    { m with mapUserID := m.mapUserID.erase entry.1 }.freeGlobalUserItem entry.2
  else m

def deleteServerItem (m : Manager) (serverID : ℕ) : Bool × Manager :=
  match m.mapServerID.lookup serverID with
  | none => (false, m)
  | some a =>
      let m := (m.server a).mapUserID.entries.foldl (expelUser serverID) m
      (true, { m with mapServerID := m.mapServerID.erase serverID }.freeGlobalServerItem a)

def activeServerItem (m : Manager) (bindIndex : ℕ) (gameServer : TagGameServer) (memory : Bool) :
    Bool × Manager :=
  match m.mapServerID.lookup gameServer.serverID with
  | some _ => (false, m)
  | none =>
      if m.servers.free.isEmpty && !memory then (false, m)
      else
        let (a, servers) := m.servers.create {}
        (true, { m with
          servers := servers.modify a fun i => { i with index := bindIndex, gameServer }
          mapServerID := m.mapServerID.insert gameServer.serverID a })

/-- The copy of a match into its room, when a match registers. -/
def setMatch (m : Manager) (gameMatch : GameMatch) : Manager :=
  match m.mapServerID.lookup gameMatch.serverID with
  | none => m
  | some a => { m with servers := m.servers.modify a fun i => { i with gameMatch } }

/-! ## Searches -/

def searchServerItem (m : Manager) (serverID : ℕ) : Option ℕ := m.mapServerID.lookup serverID

def searchUserItemByUserID (m : Manager) (userID : ℕ) : Option ℕ := m.mapUserID.lookup userID

def searchUserItemByGameID (m : Manager) (gameID : ℕ) : Option ℕ := m.mapGameID.lookup gameID

def searchUserItemByNickName (m : Manager) (nickName : String) : Option ℕ :=
  m.mapNickName.lookup nickName

end Manager

/-! ## The machine -/

inductive ManagerCall
  | activeServerItem (bindIndex : ℕ) (gameServer : TagGameServer) (memory : Bool)
  | deleteServerItem (serverID : ℕ)
  | activeUserItem (info : GlobalUserInfo) (serverID : ℕ) (memory : Bool)
  | deleteUserItem (userID serverID : ℕ)
  | resetData
  | setMatch (gameMatch : GameMatch)

def managerStep : TotalMachine Manager ManagerCall Bool
  | m, .activeServerItem bindIndex gameServer memory =>
      let r := m.activeServerItem bindIndex gameServer memory
      (r.2, [r.1])
  | m, .deleteServerItem serverID =>
      let r := m.deleteServerItem serverID
      (r.2, [r.1])
  | m, .activeUserItem info serverID memory =>
      let r := m.activeUserItem info serverID memory
      (r.2, [r.1])
  | m, .deleteUserItem userID serverID =>
      let r := m.deleteUserItem userID serverID
      (r.2, [r.1])
  | m, .resetData => (m.resetData, [])
  | m, .setMatch gameMatch => (m.setMatch gameMatch, [])

end GameServer.CorrespondServer
