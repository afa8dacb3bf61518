import GameServer.OxBattle.Model.TableFrameSink
/-!
# Ox battle — the storage

The room keeps a storage: what the real players have lost to the system.
Before the hands are compared `StorageOptimize` looks at what they would
make of it, with `JudgeSystemScore`, and exchanges the banker's hand for
that of an area if the storage cannot cover a loss, or may give something
back. `rand` is the number that is drawn.
-/

namespace GameServer.OxBattle

open Function

/-- `m_lStorageStart`, `m_lStorageMax` and `m_nStorageMul`. -/
structure Storage where
  lStorageStart : ℤ
  lStorageMax : ℤ
  nStorageMul : ℤ
  deriving DecidableEq, Repr

/-- A row of `m_cbTableCardArray`: the banker's is the first. -/
def Hands.tableCard (hands : Hands) : Option Area → List UInt8
  | none => hands.banker
  | some a => hands.area a

/-- `bExchangeData`: the hands with the banker's exchanged for an
area's. -/
def Hands.exchange (hands : Hands) (a : Area) : Hands where
  banker := hands.area a
  area := update hands.area a hands.banker

namespace Table

variable {n : ℕ} (s : Table n)

def systemBanker : Bool :=
  match s.currentBanker with
  | none => true
  | some b => ((s.tableUserItem b).map TableUser.android).getD false

def systemScore (hands : Hands) (c : Fin n) (u : TableUser) (a : Area) : ℤ :=
  let lScore := s.userJettonScore a c * (deduceWinner hands a).2
  if s.userJettonScore a c ≠ 0 then
    if (deduceWinner hands a).1 then
      (if u.android ∧ ¬ s.systemBanker then lScore else 0) -
        (if ¬ u.android ∧ s.systemBanker then lScore else 0)
    else
      (if ¬ u.android ∧ s.systemBanker then lScore else 0) -
        (if u.android ∧ ¬ s.systemBanker then lScore else 0)
  else 0

/-- What a chair makes for the system: the banker and empty chairs are
passed over. -/
def chairScore (hands : Hands) (c : Fin n) : ℤ :=
  match s.tableUserItem c with
  | none => 0
  | some u => if s.currentBanker = some c then 0 else ∑ a, s.systemScore hands c u a

/-- `JudgeSystemScore`: `lSystemScore` and `bAllEat`. -/
def judgeSystemScore (hands : Hands) : ℤ × Bool :=
  let bXianWin a := (deduceWinner hands a).1
  (∑ c, s.chairScore hands c,
    bXianWin .tianMen == bXianWin .diMen && bXianWin .diMen == bXianWin .xuanMen &&
      bXianWin .xuanMen == bXianWin .huangMen)

/-- The search for an exchange where the system wins: the last one, but
the search ends where not all areas are alike. -/
def findGain (hands : Hands) : List Area → Option Area → Option Area
  | [], nOkIndex => nOkIndex
  | nOk :: rest, nOkIndex =>
      let r := s.judgeSystemScore (hands.exchange nOk)
      if r.1 > 0 then if r.2 then findGain hands rest (some nOk) else some nOk
      else findGain hands rest nOkIndex

/-- The search for an exchange where the system loses, and less than in
those before. -/
def findLoss (hands : Hands) (lStorageStart : ℤ) : List Area → Option Area → ℤ → Option Area
  | [], nOkIndex, _ => nOkIndex
  | nOk :: rest, nOkIndex, nOkMoney =>
      let r := s.judgeSystemScore (hands.exchange nOk)
      if r.1 < 0 ∧ nOkMoney < r.1 ∧ -r.1 < lStorageStart then
        if r.2 then findLoss hands lStorageStart rest (some nOk) r.1 else some nOk
      else findLoss hands lStorageStart rest nOkIndex nOkMoney

/-- `StorageOptimize`: the area whose hand the banker gets. -/
def storageExchange (storage : Storage) (rand : ℕ) (hands : Hands) : Option Area :=
  let lSystemScore := (s.judgeSystemScore hands).1
  let areas := [Area.tianMen, .diMen, .xuanMen, .huangMen]
  if lSystemScore < 0 then
    if storage.lStorageStart > -lSystemScore then none else s.findGain hands areas none
  else if storage.lStorageStart > storage.lStorageMax ∧
      ((rand % 100 : ℕ) : ℤ) ≤ storage.nStorageMul then
    s.findLoss hands storage.lStorageStart areas none (-2 ^ 63)
  else none

def storageOptimize (storage : Storage) (rand : ℕ) (hands : Hands) : Hands :=
  match s.storageExchange storage rand hands with
  | none => hands
  | some a => hands.exchange a

/-- What `IDI_GAME_END` makes of `m_lStorageStart` before it decays: under
`m_bControl` nothing. -/
def endStorage (bControl : Bool) (lStorageStart : ℤ) : ℤ :=
  lStorageStart - ∑ c,
    match s.tableUserItem c with
    | none => 0
    | some u =>
        if s.queryBuckleServiceCharge c ∧ ¬ u.android ∧ ¬ bControl then s.userWinScore c else 0

end Table

end GameServer.OxBattle
