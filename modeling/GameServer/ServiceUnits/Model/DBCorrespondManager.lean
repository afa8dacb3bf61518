import GameServer.Common.Run
import GameServer.Common.Memory
/-!
# ServiceUnits — the database request scheduler

`CDBCorrespondManager` keeps the posted requests in `m_DBRequestList` and
the users with a request at the kernel database engine in
`m_DBRequestUserArray`. It hands a request over when its user has none at
the engine. A completion names only the user.

A request is known by its address: `address` counts the buffers that were
allocated before it. The engine is the environment: it holds the requests
handed over to it, and completes any one of them, once. The machine of
this file is the manager with that engine, and emits what happens to each
request.
-/

namespace GameServer.ServiceUnits

def sizeofDBRequestHead : ℕ := 16

/-- `tagDBRequestHead` with the data behind it. -/
structure DBRequest where
  address : ℕ
  cache : UInt8
  userID : UInt32
  contextID : UInt32
  requestID : UInt16
  data : List UInt8
  deriving DecidableEq

/-- What the manager is told by a `PostDataBaseRequest`. -/
structure PostParam where
  userID : UInt32
  requestID : UInt16
  contextID : UInt32
  data : List UInt8
  cache : UInt8 := 0
  size_lt : data.length < 2 ^ 16

/-- What happens to a request: it is put into the list, handed to the
kernel engine, completed by it, taken out of the list. -/
inductive Notice
  | posted (r : DBRequest)
  | handed (r : DBRequest)
  | completed (r : DBRequest) (succeed : Bool)
  | removed (r : DBRequest)
  deriving DecidableEq

structure DBCorrespondManager where
  /-- `m_pIKernelDataBaseEngine` is set. -/
  kernelDataBaseEngine : Bool := true
  requestList : List DBRequest := []
  requestUserArray : List UInt32 := []
  /-- How many request buffers were allocated. -/
  allocated : ℕ := 0

namespace DBCorrespondManager

def isPostDBRequest (array : List UInt32) (userID : UInt32) : Bool :=
  array.any (userID == ·)

def getUserArrayIndex (array : List UInt32) (userID : UInt32) : Option ℕ :=
  array.findIdx? (userID == ·)

/-- `AmortizeSyncData`: a fresh buffer at the tail of the list. The size
of the buffer is a 16-bit word; data that does not fit the buffer is
written past its end, a fault. -/
def amortizeSyncData (m : DBCorrespondManager) (p : PostParam) :
    Option (DBCorrespondManager × List Notice) :=
  let buffSize := word (sizeofDBRequestHead + p.data.length)
  if buffSize < sizeofDBRequestHead + p.data.length then none
  else
    let head : DBRequest :=
      ⟨m.allocated, p.cache, p.userID, p.contextID, p.requestID, p.data⟩
    some ({ m with
      requestList := m.requestList ++ [head]
      allocated := m.allocated + 1 }, [.posted head])

/-- The walk of `PerformAmortisation`: the user array it leaves and the
requests it hands over. -/
def postRequests (engine : Bool) : List DBRequest → List UInt32 → List UInt32 × List DBRequest
  | [], array => (array, [])
  | r :: rest, array =>
      if isPostDBRequest array r.userID then postRequests engine rest array
      else if engine then
        let (array', handed) := postRequests engine rest (array ++ [r.userID])
        (array', r :: handed)
      else postRequests engine rest array

def performAmortisation (m : DBCorrespondManager) : DBCorrespondManager × List DBRequest :=
  let (array, handed) := postRequests m.kernelDataBaseEngine m.requestList m.requestUserArray
  ({ m with requestUserArray := array }, handed)

def postDataBaseRequest (m : DBCorrespondManager) (p : PostParam) :
    Option (DBCorrespondManager × List Notice) :=
  (m.amortizeSyncData p).map fun (m₁, notices) =>
    let (m₂, handed) := m₁.performAmortisation
    (m₂, notices ++ handed.map .handed)

/-- Clearing the data of a completion: the first request of the user goes,
unless it is to be kept. -/
def clearRequest (userID : UInt32) (succeed : Bool) :
    List DBRequest → List DBRequest × List Notice
  | [] => ([], [])
  | r :: rest =>
      if r.userID = userID then
        if r.cache = 0 ∨ succeed then (rest, [.removed r]) else (r :: rest, [])
      else
        let (rest', notices) := clearRequest userID succeed rest
        (r :: rest', notices)

/-- Clearing the record of a completion: the user's entry of the array. -/
def clearUser (array : List UInt32) (userID : UInt32) : List UInt32 :=
  match getUserArrayIndex array userID with
  | some index => array.eraseIdx index
  | none => array

def onPostRequestComplete (m : DBCorrespondManager) (userID : UInt32) (succeed : Bool) :
    DBCorrespondManager × List Notice :=
  let (requests, notices) := clearRequest userID succeed m.requestList
  let (m', handed) := { m with
    requestUserArray := clearUser m.requestUserArray userID
    requestList := requests }.performAmortisation
  (m', notices ++ handed.map .handed)

def onTimerNotify (m : DBCorrespondManager) : DBCorrespondManager × List Notice :=
  let (m', handed) := m.performAmortisation
  (m', handed.map .handed)

end DBCorrespondManager

/-- The calls on the manager. The engine completes the request it was
given. -/
inductive Call
  | postDataBaseRequest (p : PostParam)
  | onPostRequestComplete (r : DBRequest) (succeed : Bool)
  | onTimerNotify

/-- The manager and the requests the kernel engine was handed and has not
completed. -/
structure Scheduler where
  manager : DBCorrespondManager := {}
  outstanding : List DBRequest := []

namespace Scheduler

/-- After `InitDBCorrespondManager`: nothing posted yet. -/
def start : Scheduler := {}

def handedOver (notices : List Notice) : List DBRequest :=
  notices.filterMap fun
    | .handed r => some r
    | _ => none

/-- One call. The engine cannot complete what it does not have. -/
def step (s : Scheduler) : Call → Option (Scheduler × List Notice)
  | .postDataBaseRequest p =>
      (s.manager.postDataBaseRequest p).map fun (m, notices) =>
        (⟨m, s.outstanding ++ handedOver notices⟩, notices)
  | .onPostRequestComplete r succeed =>
      if r ∈ s.outstanding then
        let (m, notices) := s.manager.onPostRequestComplete r.userID succeed
        some (⟨m, s.outstanding.erase r ++ handedOver notices⟩, .completed r succeed :: notices)
      else none
  | .onTimerNotify =>
      let (m, notices) := s.manager.onTimerNotify
      some (⟨m, s.outstanding ++ handedOver notices⟩, notices)

end Scheduler

end GameServer.ServiceUnits
