import GameServer.MatchService.Model.Schedule
import Mathlib.Data.Nat.Find
/-!
# MatchService — the schedule of a timed match

`GetMatchStartInterval` works out the time to the start of the match and
then, from the times of day alone, the time to the next daily start; the
second result stands wherever there is one. `intervalRight_iff` says when
it is the right one.

The timers are right from then on: the match plays only while it is open,
or has been within the time of one look at the clock (`open_of_playing`).
-/

namespace GameServer.MatchService

namespace LockTime

variable {o : LockTime} {curTime t : ℕ}

/-! ## The next play -/

/-- The match is open next at `t`, and not at `curTime`. -/
def NextOpen (o : LockTime) (curTime t : ℕ) : Prop :=
  curTime < t ∧ o.Open t ∧ ∀ u, curTime ≤ u → u < t → ¬o.Open u

/-- **What `GetMatchStartInterval` is to give**: 0 exactly when the match
is never open again, 1 when it is open, and else the seconds until it
is. -/
structure IntervalRight (o : LockTime) (curTime : ℕ) : Prop where
  eq_zero_iff : o.getMatchStartInterval curTime = 0 ↔ ∀ t, curTime ≤ t → ¬o.Open t
  of_open : o.Open curTime → o.getMatchStartInterval curTime = 1
  of_next : ∀ t, o.NextOpen curTime t → o.getMatchStartInterval curTime = t - curTime

theorem intervalRight_iff_of_never (h : ∀ t, curTime ≤ t → ¬o.Open t) :
    o.IntervalRight curTime ↔ o.getMatchStartInterval curTime = 0 := by
  refine ⟨fun hright => hright.eq_zero_iff.2 h, fun hzero => ⟨iff_of_true hzero h, ?_, ?_⟩⟩
  · exact fun hopen => absurd hopen (h curTime le_rfl)
  · exact fun t ht => absurd ht.2.1 (h t ht.1.le)

theorem intervalRight_iff_of_open (h : o.Open curTime) :
    o.IntervalRight curTime ↔ o.getMatchStartInterval curTime = 1 := by
  refine ⟨fun hright => hright.of_open h, fun hone => ⟨?_, fun _ => hone, ?_⟩⟩
  · exact iff_of_false (by omega) fun hnever => hnever curTime le_rfl h
  · exact fun t ht => absurd h (ht.2.2 curTime le_rfl ht.1)

theorem intervalRight_iff_of_next (h : o.NextOpen curTime t) :
    o.IntervalRight curTime ↔ o.getMatchStartInterval curTime = t - curTime := by
  obtain ⟨hlt, hopen, hfirst⟩ := h
  refine ⟨fun hright => hright.of_next t ⟨hlt, hopen, hfirst⟩, fun heq => ⟨?_, ?_, ?_⟩⟩
  · exact iff_of_false (by omega) fun hnever => hnever t hlt.le hopen
  · exact fun hnow => absurd hnow (hfirst curTime le_rfl hlt)
  · rintro u ⟨hu, huopen, hufirst⟩
    have hle : t ≤ u := Nat.le_of_not_lt fun hut => hfirst u hu.le hut huopen
    have hge : u ≤ t := Nat.le_of_not_lt fun htu => hufirst t hlt.le htu hopen
    omega

/-- After its end, and where its end does not come after its start, the
match is not open. -/
theorem not_open_of_le (h : o.matchEndTime ≤ curTime ∨ o.matchEndTime ≤ o.matchStartTime) :
    ∀ t, curTime ≤ t → ¬o.Open t := by
  rintro t ht ⟨hstart, hend, -⟩
  omega

theorem nextOpen_start (hday : o.startStamp < o.endStamp) (hcur : curTime < o.matchStartTime)
    (hlt : o.matchStartTime < o.matchEndTime) : o.NextOpen curTime o.matchStartTime :=
  ⟨hcur, ⟨le_rfl, hlt, le_rfl, hday⟩, fun _ _ hu hopen => absurd hopen.1 (by omega)⟩

/-- Before the daily start, with the match begun and not over, it opens
next at the daily start. -/
theorem nextOpen_today (hday : o.startStamp < o.endStamp) (hstart : o.matchStartTime ≤ curTime)
    (hend : curTime < o.matchEndTime) (hearly : timeOfDay curTime < o.startStamp) :
    o.NextOpen curTime (curTime + (o.startStamp - timeOfDay curTime)) := by
  simp only [NextOpen, Open, startStamp, endStamp, timeOfDay] at *
  refine ⟨by omega, ⟨by omega, by omega, by omega, by omega⟩, ?_⟩
  omega

/-- From the daily end on, with the match begun and not over, it opens next
at the start of the next day. -/
theorem nextOpen_tomorrow (hday : o.startStamp < o.endStamp)
    (hstart : o.matchStartTime ≤ curTime) (hend : curTime < o.matchEndTime)
    (hlate : o.endStamp ≤ timeOfDay curTime) :
    o.NextOpen curTime (curTime + (24 * 3600 + o.startStamp - timeOfDay curTime)) := by
  simp only [NextOpen, Open, startStamp, endStamp, timeOfDay] at *
  refine ⟨by omega, ⟨by omega, by omega, by omega, by omega⟩, ?_⟩
  omega

/-! ## What the function gives -/

theorem interval_of_early (hday : o.startStamp < o.endStamp)
    (h : timeOfDay curTime < o.startStamp) :
    o.getMatchStartInterval curTime = o.startStamp - timeOfDay curTime := by
  simp only [getMatchStartInterval]
  rw [if_pos h, if_neg (by omega)]

theorem interval_of_late (h : o.endStamp ≤ timeOfDay curTime) :
    o.getMatchStartInterval curTime = 24 * 3600 + o.startStamp - timeOfDay curTime := by
  simp only [getMatchStartInterval]
  rw [if_pos h]

theorem interval_of_inDay (h : o.startStamp ≤ timeOfDay curTime)
    (h' : timeOfDay curTime < o.endStamp) :
    o.getMatchStartInterval curTime =
      if o.matchEndTime ≤ curTime then 0
      else if curTime < o.matchStartTime then dword (o.matchStartTime - curTime)
      else 1 := by
  simp only [getMatchStartInterval]
  rw [if_neg (Nat.not_le.2 h'), if_neg (Nat.not_lt.2 h)]

theorem timeOfDay_lt (time : ℕ) : timeOfDay time < 24 * 3600 := Nat.mod_lt _ (by decide)

theorem interval_eq_zero_iff (hday : o.startStamp < o.endStamp) :
    o.getMatchStartInterval curTime = 0 ↔
      (o.startStamp ≤ timeOfDay curTime ∧ timeOfDay curTime < o.endStamp) ∧
        (o.matchEndTime ≤ curTime ∨
          (curTime < o.matchStartTime ∧ dword (o.matchStartTime - curTime) = 0)) := by
  have hlt := timeOfDay_lt curTime
  rcases Nat.lt_or_ge (timeOfDay curTime) o.startStamp with hearly | hge
  · rw [interval_of_early hday hearly]
    omega
  rcases Nat.lt_or_ge (timeOfDay curTime) o.endStamp with hin | hlate
  · rw [interval_of_inDay hge hin]
    split <;> [skip; split] <;> omega
  · rw [interval_of_late hlate]
    omega

/-- The time the interval leads to is one the match is open at. -/
theorem open_of_interval (hright : o.IntervalRight curTime)
    (hpos : 0 < o.getMatchStartInterval curTime)
    (hlasts : o.Open curTime → o.Open (curTime + 1)) :
    o.Open (curTime + o.getMatchStartInterval curTime) := by
  by_cases hnow : o.Open curTime
  · rw [hright.of_open hnow]
    exact hlasts hnow
  have hex : ∃ t, curTime ≤ t ∧ o.Open t := by
    by_contra hnever
    push Not at hnever
    exact hpos.ne' (hright.eq_zero_iff.2 hnever)
  obtain ⟨hle, hopen⟩ := Nat.find_spec hex
  have hfirst : ∀ u, curTime ≤ u → u < Nat.find hex → ¬o.Open u :=
    fun u hu hlt huopen => Nat.find_min hex hlt ⟨hu, huopen⟩
  have hlt : curTime < Nat.find hex := lt_of_le_of_ne hle fun heq => hnow (heq ▸ hopen)
  rw [hright.of_next _ ⟨hlt, hopen, hfirst⟩, Nat.add_sub_cancel' hle]
  exact hopen

/-! ## When it is right -/

/-- The time of day lies in the daily window. -/
def InDay (o : LockTime) (curTime : ℕ) : Prop :=
  o.startStamp ≤ timeOfDay curTime ∧ timeOfDay curTime < o.endStamp

/-- **When `GetMatchStartInterval` is right.** The match is over and the
daily window is open; or the match has begun and is not over; or it is to
begin, and the next daily start is its first one, or the daily window is
open and the seconds to the start fit a `DWORD`. -/
def Foreseen (o : LockTime) (curTime : ℕ) : Prop :=
  if o.matchEndTime ≤ curTime then o.InDay curTime
  else if o.matchStartTime ≤ curTime then True
  else if o.matchEndTime ≤ o.matchStartTime then
    o.InDay curTime ∧ dword (o.matchStartTime - curTime) = 0
  else if timeOfDay curTime < o.startStamp then
    curTime / (24 * 3600) = o.matchStartTime / (24 * 3600)
  else if o.endStamp ≤ timeOfDay curTime then
    curTime / (24 * 3600) + 1 = o.matchStartTime / (24 * 3600)
  else o.matchStartTime - curTime < 2 ^ 32

instance : Decidable (o.Foreseen curTime) := by
  unfold Foreseen InDay
  infer_instance

theorem intervalRight_of_begun (hday : o.startStamp < o.endStamp)
    (hstart : o.matchStartTime ≤ curTime) (hend : curTime < o.matchEndTime) :
    o.IntervalRight curTime := by
  rcases Nat.lt_or_ge (timeOfDay curTime) o.startStamp with hearly | hge
  · rw [intervalRight_iff_of_next (nextOpen_today hday hstart hend hearly),
      interval_of_early hday hearly]
    omega
  rcases Nat.lt_or_ge (timeOfDay curTime) o.endStamp with hin | hlate
  · rw [intervalRight_iff_of_open ⟨hstart, hend, hge, hin⟩, interval_of_inDay hge hin,
      if_neg (by omega), if_neg (by omega)]
  · rw [intervalRight_iff_of_next (nextOpen_tomorrow hday hstart hend hlate),
      interval_of_late hlate]
    omega

/-- Before a match that is to come the function is right when it gives the
seconds to its start. -/
theorem intervalRight_iff_of_before (hday : o.startStamp < o.endStamp)
    (hcur : curTime < o.matchStartTime) (hlt : o.matchStartTime < o.matchEndTime) :
    o.IntervalRight curTime ↔ o.Foreseen curTime := by
  rw [intervalRight_iff_of_next (nextOpen_start hday hcur hlt), Foreseen, if_neg (by omega),
    if_neg (by omega), if_neg (by omega)]
  rcases Nat.lt_or_ge (timeOfDay curTime) o.startStamp with hearly | hge
  · rw [interval_of_early hday hearly, if_pos hearly]
    simp only [startStamp, timeOfDay] at *
    omega
  rw [if_neg (by omega)]
  rcases Nat.lt_or_ge (timeOfDay curTime) o.endStamp with hin | hlate
  · rw [interval_of_inDay hge hin, if_neg (by omega), if_pos hcur, if_neg (by omega), dword]
    omega
  · rw [interval_of_late hlate, if_pos hlate]
    simp only [startStamp, endStamp, timeOfDay] at *
    omega

theorem intervalRight_iff (hday : o.startStamp < o.endStamp) :
    o.IntervalRight curTime ↔ o.Foreseen curTime := by
  rcases Nat.lt_or_ge curTime o.matchEndTime with hend | hover
  · rcases Nat.lt_or_ge curTime o.matchStartTime with hcur | hbegun
    · rcases Nat.lt_or_ge o.matchStartTime o.matchEndTime with hlt | hge
      · exact intervalRight_iff_of_before hday hcur hlt
      · rw [intervalRight_iff_of_never (not_open_of_le (Or.inr hge)),
          interval_eq_zero_iff hday, Foreseen, if_neg (by omega), if_neg (by omega), if_pos hge,
          InDay]
        omega
    · rw [Foreseen, if_neg (by omega), if_pos hbegun]
      exact iff_of_true (intervalRight_of_begun hday hbegun hend) trivial
  · rw [intervalRight_iff_of_never (not_open_of_le (Or.inl hover)), interval_eq_zero_iff hday,
      Foreseen, if_pos hover, InDay]
    omega

end LockTime

/-! ## The timers -/

namespace MatchClock

open LockTime

variable {o : LockTime} {s s' : MatchClock} {now q : ℕ} {out : List Unit}

/-- What the timers are set to. The start is due at a time the match is
open, and while the match is played the last look at the clock, or the
start, was at a time it was open. -/
structure Timed (o : LockTime) (s : MatchClock) : Prop where
  start_open : ∀ due, s.checkStartMatch = some due → s.now ≤ due ∧ o.Open (due / 1000)
  start_none : s.matchStatus = .playing → s.checkStartMatch = none
  looked : s.matchStatus = .playing →
    ∃ q, s.checkEndMatch = some (q + checkEndSpace) ∧ q ≤ s.now ∧ s.now ≤ q + checkEndSpace ∧
      o.Open (q / 1000) ∧ q / 1000 / (24 * 3600) = (q + checkEndSpace) / 1000 / (24 * 3600)
  end_none : s.matchStatus ≠ .playing → s.checkEndMatch = none

/-- **The service is started in time.** The interval it works out is the
right one, its milliseconds fit a `DWORD`, and the match is open at its
end, which may be a second later only. -/
structure StartsInTime (o : LockTime) (now : ℕ) : Prop where
  foreseen : o.Foreseen (now / 1000)
  fits : o.getMatchStartInterval (now / 1000) * 1000 < 2 ^ 32
  lasts : o.Open (now / 1000) → o.Open (now / 1000 + 1)

/-- A look at the clock that is followed by another comes before midnight
with the next one. -/
def LooksBeforeMidnight (o : LockTime) (s : MatchClock) : ClockEvent → Prop
  | .elapse _ => True
  | .checkStartMatch => s.now / 1000 / (24 * 3600) = (s.now + checkEndSpace) / 1000 / (24 * 3600)
  | .checkEndMatch => timeOfDay s.curTime < o.endStamp →
      s.now / 1000 / (24 * 3600) = (s.now + checkEndSpace) / 1000 / (24 * 3600)

instance : ∀ (s : MatchClock) (e : ClockEvent), Decidable (LooksBeforeMidnight o s e)
  | _, .elapse _ => isTrue trivial
  | s, .checkStartMatch => inferInstanceAs (Decidable (s.now / 1000 / _ = _))
  | s, .checkEndMatch => inferInstanceAs (Decidable (timeOfDay s.curTime < o.endStamp → _ = _))

/-- The timer set for the next play is due when the match is open. -/
theorem timed_setCheckStart (hright : o.IntervalRight s.curTime)
    (hfits : o.getMatchStartInterval s.curTime * 1000 < 2 ^ 32)
    (hlasts : o.Open s.curTime → o.Open (s.curTime + 1)) (hstatus : s.matchStatus ≠ .playing)
    (hstart : s.checkStartMatch = none) (hend : s.checkEndMatch = none) :
    Timed o (s.setCheckStart o) := by
  rw [setCheckStart]
  split
  · next hpos =>
    refine ⟨fun due hdue => ?_, fun h => absurd h hstatus, fun h => absurd h hstatus, fun _ => hend⟩
    rw [← Option.some.inj hdue, dword, Nat.mod_eq_of_lt hfits]
    refine ⟨Nat.le_add_right .., ?_⟩
    have hopen := open_of_interval hright hpos hlasts
    rwa [Nat.add_mul_div_right _ _ (by decide : 0 < 1000)]
  · refine ⟨fun due hdue => ?_, fun h => absurd h hstatus, fun h => absurd h hstatus, fun _ => hend⟩
    rw [hstart] at hdue
    cases hdue

theorem timed_init (hday : o.startStamp < o.endStamp) (h : StartsInTime o now) :
    Timed o (initMatchInterface o now) :=
  timed_setCheckStart ((intervalRight_iff hday).2 h.foreseen) h.fits h.lasts nofun rfl rfl

theorem timed_elapse {milliseconds : ℕ} (hs : Timed o s)
    (hwaits : s.waits (s.now + milliseconds) = true) :
    Timed o { s with now := s.now + milliseconds } := by
  obtain ⟨hstart, hend⟩ := Bool.and_eq_true_iff.1 hwaits
  refine ⟨fun due hdue => ⟨?_, (hs.start_open due hdue).2⟩, hs.start_none, fun hplaying => ?_,
    hs.end_none⟩
  · rw [hdue] at hstart
    simpa using hstart
  · obtain ⟨q, hq, hle, -, hopen⟩ := hs.looked hplaying
    rw [hq] at hend
    exact ⟨q, hq, Nat.le_add_right_of_le hle, by simpa using hend, hopen⟩

theorem timed_onCheckStartMatch (hs : Timed o s) (hdue : s.checkStartMatch = some s.now)
    (hbefore : LooksBeforeMidnight o s .checkStartMatch) : Timed o s.onCheckStartMatch := by
  refine ⟨nofun, fun _ => rfl, fun _ => ?_, fun h => absurd rfl h⟩
  exact ⟨s.now, rfl, le_rfl, Nat.le_add_right .., (hs.start_open _ hdue).2, hbefore⟩

/-- A look at the clock ends the match, sets the timer for the next day, or
finds the match open. -/
theorem timed_onCheckEndMatch (hday : o.startStamp < o.endStamp) (hs : Timed o s)
    (hdue : s.checkEndMatch = some s.now) (hbefore : LooksBeforeMidnight o s .checkEndMatch) :
    Timed o (s.onCheckEndMatch o) := by
  have hplaying : s.matchStatus = .playing := by
    by_contra hne
    rw [hs.end_none hne] at hdue
    cases hdue
  have hstart := hs.start_none hplaying
  obtain ⟨q, hq, hle, -, ⟨hbegun, hqend, hqge, hqlt⟩, hmidnight⟩ := hs.looked hplaying
  have hnow : q + checkEndSpace = s.now := Option.some.inj (hq.symm.trans hdue)
  have hcur : q / 1000 ≤ s.curTime := Nat.div_le_div_right hle
  rw [onCheckEndMatch]
  dsimp only
  split
  · next hlate =>
    split
    · exact ⟨fun due h => absurd (hstart.symm.trans h) (by simp), fun _ => hstart,
        nofun, fun _ => rfl⟩
    · next hgoing =>
      have hend : s.curTime < o.matchEndTime := Nat.lt_of_not_le hgoing
      have hright := intervalRight_of_begun hday (hbegun.trans hcur) hend
      refine timed_setCheckStart hright ?_ (fun hopen => ?_) (by simp) hstart rfl
      · change o.getMatchStartInterval s.curTime * 1000 < 2 ^ 32
        rw [interval_of_late hlate]
        omega
      · exact absurd hopen.2.2.2 (Nat.not_lt.2 hlate)
  · next hin =>
    have hlt : timeOfDay s.curTime < o.endStamp := Nat.lt_of_not_le hin
    refine ⟨fun due h => absurd (hstart.symm.trans h) (by simp), fun _ => hstart, fun _ => ?_,
      fun h => absurd hplaying h⟩
    -- the look is on the day of the one before, so the daily start lies behind it
    rw [hnow] at hmidnight
    refine ⟨s.now, rfl, le_rfl, Nat.le_add_right .., ?_, hbefore hlt⟩
    simp only [LockTime.Open, startStamp, endStamp, timeOfDay, curTime] at *
    refine ⟨by omega, by omega, by omega, hlt⟩

/-- **What one step keeps.** -/
theorem timed_step (hday : o.startStamp < o.endStamp) (e : ClockEvent) (hs : Timed o s)
    (hbefore : LooksBeforeMidnight o s e) (h : step o s e = some (s', out)) : Timed o s' := by
  cases e with
  | elapse milliseconds =>
    obtain ⟨hwaits, heq⟩ := Option.ite_none_right_eq_some.1 h
    obtain rfl : _ = s' := congrArg Prod.fst (Option.some.inj heq)
    exact timed_elapse hs hwaits
  | checkStartMatch =>
    obtain ⟨hdue, heq⟩ := Option.ite_none_right_eq_some.1 h
    obtain rfl : _ = s' := congrArg Prod.fst (Option.some.inj heq)
    exact timed_onCheckStartMatch hs hdue hbefore
  | checkEndMatch =>
    obtain ⟨hdue, heq⟩ := Option.ite_none_right_eq_some.1 h
    obtain rfl : _ = s' := congrArg Prod.fst (Option.some.inj heq)
    exact timed_onCheckEndMatch hday hs hdue hbefore

/-- **A match that plays is open**, or has been within the time of one look
at the clock. -/
def PlaysOpen (o : LockTime) (s : MatchClock) : Prop :=
  s.matchStatus = .playing →
    ∃ time, time ≤ s.now ∧ s.now ≤ time + checkEndSpace ∧ o.Open (time / 1000)

theorem Timed.playsOpen (hs : Timed o s) : PlaysOpen o s := by
  intro hplaying
  obtain ⟨q, -, hle, hge, hopen, -⟩ := hs.looked hplaying
  exact ⟨q, hle, hge, hopen⟩

theorem timed_run (hday : o.startStamp < o.endStamp) (hstart : StartsInTime o now)
    {events : List ClockEvent} {r : MatchClock × List Unit}
    (hal : Machine.Along (step o) (LooksBeforeMidnight o) (initMatchInterface o now) events)
    (hrun : Machine.run (step o) (initMatchInterface o now) events = some r) : Timed o r.1 :=
  Machine.inv_run (fun _ e _ _ hs hok h => timed_step hday e hs hok h) events _ r
    (timed_init hday hstart) hal hrun

end MatchClock

/-! ## The schedule -/

open LockTime MatchClock

/-- **A timed match and its schedule.** For a daily start before the daily
end, the interval to the next play is right exactly when it is
`Foreseen`; and a service started in time, whose looks at the clock do
not step over midnight, plays only while the match is open, up to the
time between two looks. -/
theorem lockTime_schedule (o : LockTime) (hday : o.startStamp < o.endStamp) :
    (∀ curTime, o.IntervalRight curTime ↔ o.Foreseen curTime) ∧
      ∀ now events r, StartsInTime o now →
        Machine.Along (MatchClock.step o) (LooksBeforeMidnight o) (initMatchInterface o now)
          events →
        Machine.run (MatchClock.step o) (initMatchInterface o now) events = some r →
        PlaysOpen o r.1 :=
  ⟨fun _ => intervalRight_iff hday,
    fun _ _ _ hstart hal hrun => (timed_run hday hstart hal hrun).playsOpen⟩

/-- A match of three days, from eight in the morning to eight in the
evening. -/
def threeDays : LockTime where
  matchStartTime := 10 * (24 * 3600) + 8 * 3600
  matchEndTime := 12 * (24 * 3600) + 20 * 3600

theorem lockTime_schedule_threeDays :
    (∀ curTime, threeDays.IntervalRight curTime ↔ threeDays.Foreseen curTime) ∧
      PlaysOpen threeDays
        { matchStatus := .playing, checkEndMatch := some 892810000, now := 892805000 } := by
  have hschedule := lockTime_schedule threeDays (by decide +kernel)
  have hstart : StartsInTime threeDays 889200000 := by constructor <;> decide +kernel
  exact ⟨hschedule.1, hschedule.2 889200000
    [.elapse 3600000, .checkStartMatch, .elapse 5000, .checkEndMatch] (_, []) hstart
    (by decide +kernel) (by decide +kernel)⟩

/-- **Ten days too early.** At seven in the morning, ten days before the
match, the interval leads to eight o'clock of the same day, and the match
is played then. -/
theorem threeDays_starts_early :
    threeDays.startStamp < threeDays.endStamp ∧
      threeDays.getMatchStartInterval (7 * 3600) = 3600 ∧ ¬threeDays.IntervalRight (7 * 3600) ∧
      Machine.run (MatchClock.step threeDays) (initMatchInterface threeDays 25200000)
          [.elapse 3600000, .checkStartMatch] = some
        ({ matchStatus := .playing, checkEndMatch := some 28805000, now := 28800000 }, []) ∧
      ¬PlaysOpen threeDays
        { matchStatus := .playing, checkEndMatch := some 28805000, now := 28800000 } := by
  have hday : threeDays.startStamp < threeDays.endStamp := by decide +kernel
  refine ⟨hday, by decide +kernel, ?_, by decide +kernel, fun hplays => ?_⟩
  · rw [intervalRight_iff hday]
    decide +kernel
  · obtain ⟨time, hle, -, hopen, -⟩ := hplays rfl
    have hstart : 892800 ≤ time / 1000 := hopen
    dsimp only at hle
    omega

end GameServer.MatchService
