import Mathlib.Data.Prod.Lex
/-!
# Dates

A point in time has a month, counted from the year 0, a day of the month,
counted from 1, and a time of the day. Months are added as databases add
them: the day stays, unless the month has fewer days.
-/

namespace GameServer

structure DateTime where
  month : ℕ
  day : ℕ
  time : ℕ
  deriving DecidableEq, Repr

namespace DateTime

/-- By month, then day, then time. -/
def key (d : DateTime) : ℕ ×ₗ ℕ ×ₗ ℕ := toLex (d.month, toLex (d.day, d.time))

theorem key_injective : Function.Injective key := by
  rintro ⟨m, d, t⟩ ⟨m', d', t'⟩ h
  cases h
  rfl

instance : LinearOrder DateTime := LinearOrder.lift' key key_injective

def leap (year : ℕ) : Bool := year % 4 = 0 && (year % 100 ≠ 0 || year % 400 = 0)

def daysInMonth (month : ℕ) : ℕ :=
  match month % 12 with
  | 1 => if leap (month / 12) then 29 else 28
  | 3 | 5 | 8 | 10 => 30
  | _ => 31

/-- `DATEADD(mm, n, d)`. -/
def addMonths (d : DateTime) (n : ℕ) : DateTime :=
  { d with month := d.month + n, day := min d.day (daysInMonth (d.month + n)) }

variable {d d' : DateTime} {n : ℕ}

theorem lt_of_month_lt (h : d.month < d'.month) : d < d' :=
  Prod.Lex.lt_iff.2 (Or.inl h)

/-- **Months added lead to a later time.** -/
theorem lt_addMonths (d : DateTime) (hn : 0 < n) : d < d.addMonths n :=
  lt_of_month_lt (Nat.lt_add_of_pos_right hn)

end DateTime

end GameServer
