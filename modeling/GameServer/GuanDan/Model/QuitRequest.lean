import GameServer.GuanDan.Model.TableFrameSink
/-!
# Guandan — requests to quit

The rest of `CTableFrameSink`: a player asks to leave, the others answer,
and with three in favour the hand is broken off. The chair in a request is
the client's; the arrays have four entries, and an index outside them is a
fault.
-/

namespace GameServer.GuanDan

abbrev requestQuitCount : ℕ := 3

/-- `CTableFrameSink` with the requests to quit. -/
structure QuitSink where
  table : TableSink := {}
  requestTimes : Chair → ℕ := fun _ => 0
  /-- `m_lstRequestUserID`: chairs as the messages named them. -/
  lstRequestUserID : List ℕ := []
  responseStatus : Chair → UInt8 := fun _ => 0
  haveSendRequestQuit : Bool := false
  /-- What `IDI_RESPONSE_QUIT` is bound to while it is armed. -/
  responseQuitTimer : Option ℕ := none

/-- What happens at the table, and the messages and the timer for quitting.
`playing` says whether the sender is `US_PLAYING`. -/
inductive QuitEvent where
  | table (event : Event)
  | requestQuit (playing : Bool) (chairID : UInt16) (quitType : UInt8)
  | responseQuit (chair : Chair) (playing : Bool) (chairID : UInt16) (responseType : UInt8)
  | responseQuitTimer

namespace QuitSink

/-- What `RepositionSink` and `OnEventGameStart` clear of the requests. -/
def clearRequests (s : QuitSink) : QuitSink :=
  { s with
    requestTimes := fun _ => 0
    lstRequestUserID := []
    responseStatus := fun _ => 0
    haveSendRequestQuit := false }

/-- `OnEventGameConclude` for one who leaves or for all: the score of one
who leaves is written at his chair. -/
def onEventGameConclude (chairID : ℕ) (reason : EndReason) (s : QuitSink) :
    Option (QuitSink × List Output) :=
  if reason = .userLeave ∧ gamePlayer ≤ chairID then none
  else (s.table.onEventGameConclude reason fun _ => 0).map fun r =>
    let t := { s with table := r.1, responseQuitTimer := none }
    -- `ConcludeGame` of the frame does nothing where no game is on
    (if s.table.gameStatus = .free then t else t.clearRequests, r.2)

/-- `SendRequestQuitMsg`: the first request is put to the others. -/
def sendRequestQuitMsg (s : QuitSink) : Option QuitSink :=
  match s.lstRequestUserID, s.haveSendRequestQuit with
  | user :: users, false =>
      if h : user < gamePlayer then
        some { s with
          haveSendRequestQuit := true
          requestTimes := Function.update s.requestTimes ⟨user, h⟩ (s.requestTimes ⟨user, h⟩ + 1)
          responseStatus := fun _ => 0
          responseQuitTimer := some user
          lstRequestUserID := users }
      else none
  | _, _ => some s

def onSubRequestQuit (chairID : ℕ) (quitType : UInt8) (s : QuitSink) :
    Option (QuitSink × List Output) :=
  if quitType = 2 then s.onEventGameConclude chairID .userLeave
  else if h : chairID < gamePlayer then
    if requestQuitCount ≤ s.requestTimes ⟨chairID, h⟩ then some (s, [])
    else
      { s with lstRequestUserID := s.lstRequestUserID ++ [chairID] }.sendRequestQuitMsg.map fun s =>
        (s, [])
  else none

/-- `OnDoResponseQuit`. The chair of the request is only sent on. -/
def onDoResponseQuit (responseType : UInt8) (s : QuitSink) (me : Chair) :
    Option (QuitSink × List Output) :=
  if s.responseStatus me ≠ 0 then some (s, [])
  else
    let status := Function.update s.responseStatus me responseType
    let s := { s with responseStatus := status }
    let responseCount := (List.finRange gamePlayer).countP fun i => status i ≠ 0
    let agreeQuitCount := (List.finRange gamePlayer).countP fun i => status i = 1
    if 3 ≤ responseCount then
      let s := { s with responseQuitTimer := none, haveSendRequestQuit := false }
      -- `OnEventGameConclude` is called with `INVALID_CHAIR`
      if 3 ≤ agreeQuitCount then s.onEventGameConclude 0xFFFF .dismiss
      else s.sendRequestQuitMsg.map fun s => (s, [])
    else some (s, [])

/-- `OnTimerMessage(IDI_RESPONSE_QUIT)`: who has not answered is against
it. -/
def onResponseQuitTimer (asker : ℕ) (s : QuitSink) : Option (QuitSink × List Output) :=
  Machine.run (fun s i => if i.val ≠ asker ∧ s.responseStatus i = 0 then s.onDoResponseQuit 2 i
    else some (s, [])) { s with responseQuitTimer := none } (List.finRange gamePlayer)

/-- An event of the table. A deal clears the requests, and so does the end
of a hand, which stops the timer too. -/
def onTable (event : Event) (s : QuitSink) : Option (QuitSink × List Output) :=
  (TableSink.step s.table event).map fun r =>
    let s := { s with table := r.1 }
    if r.2.any fun o => match o with
        | .gameEnd .. => true
        | _ => false then
      ({ s with responseQuitTimer := none }.clearRequests, r.2)
    else if r.2.any fun o => match o with
        | .sendCard .. => true
        | _ => false then (s.clearRequests, r.2)
    else (s, r.2)

def step (s : QuitSink) : QuitEvent → Option (QuitSink × List Output)
  | .table event => s.onTable event
  | .requestQuit playing chairID quitType =>
      if playing = true then s.onSubRequestQuit chairID.toNat quitType else some (s, [])
  | .responseQuit chair playing _ responseType =>
      if playing = true then s.onDoResponseQuit responseType chair else some (s, [])
  | .responseQuitTimer =>
      match s.responseQuitTimer with
      | some asker => s.onResponseQuitTimer asker
      | none => some (s, [])

end QuitSink

end GameServer.GuanDan
