import GameServer.AttemperEngine.Model.Distribute
import GameServer.Common.Memory
/-!
# AttemperEngine — the nodes of the queue

`CDistributeManager` as it is kept: nodes that are linked both ways, and a
pool of nodes that is linked one way. Here a node is an address. What an
address holds before a node is made there is whatever the memory held,
and what a node holds when it goes back to the pool stays in it.

A loop over the nodes is given the number of the nodes made so far as its
fuel, and `none` is a loop that has not come to an end by then.
-/

namespace GameServer.AttemperEngine

open Function

/-- `CDistributeNodePool::BLOCK_SIZE`. -/
def blockSize : ℕ := 40

/-- `tagDistributeInfo`, with the node it is kept in. -/
structure PertainInfo extends DistributeInfo where
  pPertainNode : Option ℕ := none
  deriving DecidableEq, Repr

structure DistributeNode where
  pPrepDistributeNode : Option ℕ := none
  pNextDistributeNode : Option ℕ := none
  distributeInfo : PertainInfo
  deriving DecidableEq, Repr

def zeroNode : DistributeNode where
  distributeInfo := { wDistribute := 0, wLastTableID := 0, userID := 0 }

/-- `CDistributeManager` and `CDistributeNodePool`. The nodes made so far
are at the addresses below `made`. -/
structure DistributeManager where
  node : ℕ → DistributeNode
  made : ℕ := 0
  pHeadOfFreeList : Option ℕ := none
  pHeadNode : Option ℕ := none
  wNodeCount : ℕ := 0
  wRealCount : ℕ := 0
  wAndroidCount : ℕ := 0
  cbDistributeRule : ℕ := 0

/-- What happens to the users of the queue. -/
inductive NodeEvent where
  | inserted (userID : ℕ)
  | removed (userID : ℕ)
  deriving DecidableEq, Repr

/-- The calls of a manager. `RemoveDistributeNode` is called for a node or
for a user. -/
inductive NodeOperation where
  | insertDistributeNode (distributeInfo : DistributeInfo)
  | removeDistributeNode (pDistributeNode : Option ℕ)
  | removeDistributeUser (userID : ℕ)
  | removeAll
  deriving DecidableEq, Repr

namespace DistributeManager

variable (userItem : ℕ → WaitingUser) (s : DistributeManager)

/-- The manager and the pool as they are made, in whatever memory. -/
def start (node : ℕ → DistributeNode) (cbDistributeRule : ℕ) : DistributeManager :=
  { node, cbDistributeRule }

/-- `pPrepDistributeNode` of a node is set. -/
def setPrep (p : ℕ) (q : Option ℕ) : DistributeManager :=
  { s with node := update s.node p { s.node p with pPrepDistributeNode := q } }

/-- `pNextDistributeNode` of a node is set. -/
def setNext (p : ℕ) (q : Option ℕ) : DistributeManager :=
  { s with node := update s.node p { s.node p with pNextDistributeNode := q } }

/-! ## CDistributeNodePool -/

/-- A node is made, and put into the pool. -/
def newBlock : DistributeManager :=
  { s.setNext s.made s.pHeadOfFreeList with made := s.made + 1, pHeadOfFreeList := some s.made }

/-- The loop of `AllocNode`. -/
def newBlocks : ℕ → DistributeManager → DistributeManager
  | 0, s => s
  | n + 1, s => newBlocks n s.newBlock

/-- The pool, when it has a node to give. -/
def supplied : DistributeManager :=
  match s.pHeadOfFreeList with
  | some _ => s
  | none => s.newBlocks blockSize

def allocNode : Option ℕ × DistributeManager :=
  match s.supplied.pHeadOfFreeList with
  | none => (none, s.supplied)
  | some p =>
      (some p, { s.supplied with
        pHeadOfFreeList := (s.supplied.node p).pNextDistributeNode
        node := update s.supplied.node p zeroNode })

def freeNode (p : ℕ) : DistributeManager :=
  { s.setNext p s.pHeadOfFreeList with pHeadOfFreeList := some p }

/-! ## CDistributeManager -/

/-- The loop of `SearchNode`. -/
def searchFrom (userID : ℕ) : ℕ → Option ℕ → Option (Option ℕ)
  | _, none => some none
  | 0, some _ => none
  | fuel + 1, some p =>
      if (s.node p).distributeInfo.userID = userID then some (some p)
      else searchFrom userID fuel (s.node p).pNextDistributeNode

def searchNode (userID : ℕ) : Option (Option ℕ) := s.searchFrom userID s.made s.pHeadNode

def countUser (userID : ℕ) : DistributeManager :=
  if (userItem userID).androidUser then
    { s with wAndroidCount := word (s.wAndroidCount + 1), wNodeCount := word (s.wNodeCount + 1) }
  else { s with wRealCount := word (s.wRealCount + 1), wNodeCount := word (s.wNodeCount + 1) }

/-- He is counted no longer. A `WORD` below zero starts again at its end. -/
def uncountUser (userID : ℕ) : DistributeManager :=
  if (userItem userID).androidUser then
    { s with
      wAndroidCount := word (s.wAndroidCount + 65535)
      wNodeCount := word (s.wNodeCount + 65535) }
  else
    { s with
      wRealCount := word (s.wRealCount + 65535)
      wNodeCount := word (s.wNodeCount + 65535) }

def fillNode (p : ℕ) (distributeInfo : DistributeInfo) : DistributeManager :=
  { s with
    node := update s.node p
      { s.node p with distributeInfo := { distributeInfo with pPertainNode := some p } } }

def linkNode (p : ℕ) : DistributeManager :=
  match s.pHeadNode with
  | none => { s with pHeadNode := some p }
  | some head =>
      match (s.node head).pNextDistributeNode with
      | none => (s.setPrep p (some head)).setNext head (some p)
      | some next =>
          (((s.setPrep next (some p)).setNext p (some next)).setPrep p (some head)).setNext head
            (some p)

def insertDistributeNode (distributeInfo : DistributeInfo) : Option (Bool × DistributeManager) :=
  match s.searchNode distributeInfo.userID with
  | none => none
  | some (some _) => some (false, s)
  | some none =>
      match s.allocNode with
      | (none, s) => some (false, s)
      | (some p, s) =>
          some (true,
            ((s.fillNode p distributeInfo).linkNode p).countUser userItem distributeInfo.userID)

/-- The part of `RemoveDistributeNode` that takes a node out of the
list. -/
def unlinkNode (p : ℕ) : DistributeManager :=
  match (s.node p).pPrepDistributeNode, (s.node p).pNextDistributeNode with
  | some prep, some next => (s.setNext prep (some next)).setPrep next (some prep)
  | some prep, none =>
      if (s.node prep).pNextDistributeNode = some p then s.setNext prep none else s
  | none, some next => { s.setPrep next none with pHeadNode := some next }
  | none, none => { s with pHeadNode := none }

/-- `RemoveDistributeNode` for a node. It is not looked up. -/
def removeDistributeNode (p : ℕ) : DistributeManager :=
  ((s.unlinkNode p).uncountUser userItem (s.node p).distributeInfo.userID).freeNode p

/-- The loop of `RemoveAll`. -/
def removeNodes : ℕ → DistributeManager → Option (DistributeManager × List NodeEvent)
  | fuel, s =>
      match s.pHeadNode with
      | none => some (s, [])
      | some p =>
          match fuel with
          | 0 => none
          | fuel + 1 =>
              (removeNodes fuel (s.removeDistributeNode userItem p)).map fun r =>
                (r.1, .removed (s.node p).distributeInfo.userID :: r.2)

def removeAll : Option (DistributeManager × List NodeEvent) :=
  (removeNodes userItem s.made s).map fun r =>
    ({ r.1 with pHeadNode := none, wNodeCount := 0, wAndroidCount := 0, wRealCount := 0 }, r.2)

def step : Machine DistributeManager NodeOperation NodeEvent
  | s, .insertDistributeNode distributeInfo =>
      (s.insertDistributeNode userItem distributeInfo).map fun r =>
        (r.2, if r.1 then [.inserted distributeInfo.userID] else [])
  | s, .removeDistributeNode none => some (s, [])
  | s, .removeDistributeNode (some p) =>
      some (s.removeDistributeNode userItem p, [.removed (s.node p).distributeInfo.userID])
  | s, .removeDistributeUser userID =>
      match s.searchNode userID with
      | none => none
      | some none => some (s, [])
      | some (some p) =>
          some (s.removeDistributeNode userItem p, [.removed (s.node p).distributeInfo.userID])
  | s, .removeAll => s.removeAll userItem

/-- The loop of `PerformDistribute`. -/
def drawNodes (wNeedCount : ℕ) : ℕ → List PertainInfo → Option ℕ → Option (List PertainInfo)
  | _, drawn, none => some drawn
  | 0, _, some _ => none
  | fuel + 1, drawn, some p =>
      let info := (s.node p).distributeInfo
      let drawn :=
        if firstSuccess s.cbDistributeRule userItem wNeedCount
            (drawn.map PertainInfo.toDistributeInfo) info.toDistributeInfo then drawn ++ [info]
        else drawn
      if drawn.length = wNeedCount then some drawn
      else drawNodes wNeedCount fuel drawn (s.node p).pNextDistributeNode

/-- `PerformDistribute`, for an empty array: what it returns, and the
array. -/
def performDistribute (wNeedCount : ℕ) : Option (ℕ × List PertainInfo) :=
  match s.pHeadNode with
  | none => some (0, [])
  | some p =>
      (s.drawNodes userItem wNeedCount s.made [(s.node p).distributeInfo]
        (s.node p).pNextDistributeNode).map fun drawn => (word drawn.length, drawn)

end DistributeManager

end GameServer.AttemperEngine
