import GameServer.GuanDan.Model.QuitRequest
/-!
# Guandan — the log of the requests to quit

What comes in about quitting during a hand and what the table does about
it, one entry after another: the messages with their senders, the requests
queued and put to the others, the answers recorded, what is sent and what
is written. The states are those of the requests to quit.
-/

namespace GameServer.GuanDan

abbrev flee : ℤ := 5

/-- What happens in a hand: a play that leaves a table, and the messages
and the timer for quitting, with the sender's own chair. -/
inductive QuitCall where
  | play (table : TableSink)
  | requestQuit (sender : Chair) (playing : Bool) (chairID : UInt16) (quitType : UInt8)
  | responseQuit (sender : Chair) (playing : Bool) (chairID : UInt16) (responseType : UInt8)
  | responseQuitTimer

inductive QuitEntry where
  /-- `SUB_C_REQUEST_QUIT` of one who is playing. -/
  | request (sender : Chair) (chairID : UInt16) (quitType : UInt8)
  /-- `SUB_C_RESPONSE_QUIT` of one who is playing. -/
  | response (sender : Chair) (chairID : UInt16) (responseType : UInt8)
  /-- `IDI_RESPONSE_QUIT`. -/
  | timeOut
  /-- A chair goes into `m_lstRequestUserID`. -/
  | queued (chairID : ℕ)
  /-- `SUB_S_REQUEST_QUIT`, to all but the chair. -/
  | asked (chairID : ℕ)
  /-- An answer goes into `m_cbResponseStatus`. -/
  | recorded (chair : Chair) (responseType : UInt8)
  /-- `SUB_S_RESPONSE_QUIT`. -/
  | responseQuit (chairID : ℕ) (response : Bool)
  /-- `SUB_S_FORCE_QUIT`. -/
  | forceQuit (chairID : ℕ)
  /-- `WriteUserScore` with `SCORE_TYPE_FLEE`. -/
  | writeUserScore (chairID : ℕ) (score : ℤ)
  /-- The end of the hand with `GER_DISMISS`. -/
  | dismissed
  deriving DecidableEq, Repr

/-- The chairs that have answered. -/
def responseCount (status : Chair → UInt8) : ℕ :=
  (List.finRange gamePlayer).countP fun i => status i ≠ 0

def agreeQuitCount (status : Chair → UInt8) : ℕ :=
  (List.finRange gamePlayer).countP fun i => status i = 1

namespace QuitSink

def sendRequestEntries (s : QuitSink) : List QuitEntry :=
  match s.lstRequestUserID, s.haveSendRequestQuit with
  | user :: _, false => [.asked user]
  | _, _ => []

def requestEntries (cellScore : ℤ) (userScore : ℕ → ℤ) (chairID : ℕ) (quitType : UInt8)
    (s : QuitSink) : List QuitEntry :=
  if quitType = 2 then
    [.writeUserScore chairID (0 - (min (flee * cellScore) (userScore chairID)).natAbs), .forceQuit chairID]
  else if h : chairID < gamePlayer then
    if requestQuitCount ≤ s.requestTimes ⟨chairID, h⟩ then []
    else
      .queued chairID ::
        { s with lstRequestUserID := s.lstRequestUserID ++ [chairID] }.sendRequestEntries
  else []

/-- The entries of `OnDoResponseQuit`. Its message is sent before the votes
are looked at, and once more after. -/
def responseEntries (requestID : ℕ) (responseType : UInt8) (s : QuitSink) (me : Chair) :
    List QuitEntry :=
  if s.responseStatus me ≠ 0 then []
  else
    let status := Function.update s.responseStatus me responseType
    .recorded me responseType ::
      if 3 ≤ responseCount status then
        .responseQuit requestID false ::
          if 3 ≤ agreeQuitCount status then [.dismissed, .responseQuit requestID true]
          else .responseQuit requestID false ::
            { s with haveSendRequestQuit := false }.sendRequestEntries
      else []

/-- `OnDoResponseQuit` with its entries. -/
def respond (requestID : ℕ) (responseType : UInt8) (s : QuitSink) (me : Chair) :
    Option (QuitSink × List QuitEntry) :=
  (s.onDoResponseQuit responseType me).map fun r =>
    (r.1, s.responseEntries requestID responseType me)

/-- One chair in the loop of `OnTimerMessage(IDI_RESPONSE_QUIT)`. -/
def timeOutOne (asker : ℕ) (s : QuitSink) (i : Chair) : Option (QuitSink × List QuitEntry) :=
  if i.val ≠ asker ∧ s.responseStatus i = 0 then s.respond asker 2 i else some (s, [])

/-- `OnTimerMessage(IDI_RESPONSE_QUIT)` with its entries. -/
def timeOut (asker : ℕ) (s : QuitSink) : Option (QuitSink × List QuitEntry) :=
  Machine.run (timeOutOne asker) { s with responseQuitTimer := none } (List.finRange gamePlayer)

def call (cellScore : ℤ) (userScore : ℕ → ℤ) (s : QuitSink) :
    QuitCall → Option (QuitSink × List QuitEntry)
  | .play table => some ({ s with table }, [])
  | .requestQuit sender playing chairID quitType =>
      if playing = true then
        (s.onSubRequestQuit chairID.toNat quitType).map fun r =>
          (r.1, .request sender chairID quitType ::
            s.requestEntries cellScore userScore chairID.toNat quitType)
      else some (s, [])
  | .responseQuit sender playing chairID responseType =>
      if playing = true then
        (s.respond chairID.toNat responseType sender).map fun r =>
          (r.1, .response sender chairID responseType :: r.2)
      else some (s, [])
  | .responseQuitTimer =>
      match s.responseQuitTimer with
      | some asker => (s.timeOut asker).map fun r => (r.1, .timeOut :: r.2)
      | none => some (s, [])

end QuitSink

end GameServer.GuanDan
