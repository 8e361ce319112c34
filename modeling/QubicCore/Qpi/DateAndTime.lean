import QubicCore.Platform

/-!
# `DateAndTime`

Date and time in one 64-bit word: year in the bits 46 to 61, month 42 to 45, day 37 to 41, hour 32
to 36, minute 26 to 31, second 20 to 25, millisecond 10 to 19 and microsecond 0 to 9.

`add` writes the time of the day first and the date afterwards, and leaves the new time in place if
the date cannot be reached.
-/

namespace QubicCore.Qpi

structure DateAndTime where
  value : Nat
deriving DecidableEq

namespace DateAndTime

instance : Inhabited DateAndTime := ⟨⟨0⟩⟩

instance : LinearOrder DateAndTime :=
  LinearOrder.lift' value fun a b h => by cases a; cases b; exact congrArg mk h

variable (t : DateAndTime)

def getYear : Nat := (t.value >>> 46) % 2 ^ 16
def getMonth : Nat := (t.value >>> 42) % 2 ^ 4
def getDay : Nat := (t.value >>> 37) % 2 ^ 5
def getHour : Nat := (t.value >>> 32) % 2 ^ 5
def getMinute : Nat := (t.value >>> 26) % 2 ^ 6
def getSecond : Nat := (t.value >>> 20) % 2 ^ 6
def getMillisec : Nat := (t.value >>> 10) % 2 ^ 10
def getMicrosecDuringMillisec : Nat := t.value % 2 ^ 10

def set (year month day hour minute second millisec microsec : Nat) : DateAndTime :=
  ⟨year <<< 46 ||| month <<< 42 ||| day <<< 37 ||| hour <<< 32 ||| minute <<< 26 |||
    second <<< 20 ||| millisec <<< 10 ||| microsec⟩

def setInvalid (smallestValue : Bool) : DateAndTime := ⟨if smallestValue then 0 else 2 ^ 64 - 1⟩

def setDate (year month day : Nat) : DateAndTime :=
  ⟨t.value &&& 0x1fffffffff ||| (year <<< 46 ||| month <<< 42 ||| day <<< 37)⟩

def setTime (hour minute second millisec microsec : Nat) : DateAndTime :=
  ⟨t.value &&& 0x1ffffff <<< 37 |||
    (hour <<< 32 ||| minute <<< 26 ||| second <<< 20 ||| millisec <<< 10 ||| microsec)⟩

/-- `isLeapYear(uint64 year)`; a negative year wraps. -/
def isLeapYear (year : Int) : Bool :=
  let year := uint64 year
  if year % 4 ≠ 0 then false
  else if year % 100 = 0 then year % 400 = 0
  else true

def daysInMonth (year month : Int) : Int :=
  if month < 1 ∨ month > 12 then 0
  else if month = 2 ∧ isLeapYear year then 29
  else [0, 31, 28, 31, 30, 31, 30, 31, 31, 30, 31, 30, 31].getD month.toNat 0

def fieldsValid (year month day hour minute second millisec microsec : Nat) : Bool :=
  if year > 0xffff then false
  else if month > 12 ∨ month = 0 then false
  else if day > 31 ∨ day = 0 then false
  else if day = 31 ∧ month ≠ 1 ∧ month ≠ 3 ∧ month ≠ 5 ∧ month ≠ 7 ∧ month ≠ 8 ∧ month ≠ 10 ∧
      month ≠ 12 then false
  else if day = 30 ∧ month = 2 then false
  else if day = 29 ∧ month = 2 ∧ !isLeapYear year then false
  else if hour ≥ 24 then false
  else if minute ≥ 60 then false
  else if second ≥ 60 then false
  else if millisec ≥ 1000 then false
  else if microsec ≥ 1000 then false
  else true

def isValid : Bool :=
  if t.value = 0 then false
  else fieldsValid t.getYear t.getMonth t.getDay t.getHour t.getMinute t.getSecond t.getMillisec
    t.getMicrosecDuringMillisec

/-- `none` is the result `false`. -/
def addWithoutOverflow (val valToAdd : Int) : Option Int :=
  let sum := sint64 (val + valToAdd)
  if val < 0 ∧ valToAdd < 0 ∧ sum > 0 then none
  else if val > 0 ∧ valToAdd > 0 ∧ sum < 0 then none
  else some sum

def addAndComputeCarry (low lowToHighFactor lowAdd1 lowAdd2 : Int) : Option (Int × Int) := do
  let low ← addWithoutOverflow low lowAdd1
  let low ← if lowAdd2 ≠ 0 then addWithoutOverflow low lowAdd2 else some low
  if low = 0 then some (low, 0)
  else if low > 0 then some (low.tmod lowToHighFactor, low.tdiv lowToHighFactor)
  else
    let highCarryOut := (low - lowToHighFactor + 1).tdiv lowToHighFactor
    some (low - highCarryOut * lowToHighFactor, highCarryOut)

def addField (low lowToHighFactor lowAdd1 lowAdd2 : Int) : Option (Int × Int) :=
  if lowAdd1 ≠ 0 ∨ lowAdd2 ≠ 0 then addAndComputeCarry low lowToHighFactor lowAdd1 lowAdd2
  else some (low, 0)

/-- The date during `add(years, months, days)`, with the days still to add. -/
structure Date where
  (newYear newMonth newDay days : Int)

/-- `while (days >= 365)`; a loop that is not ended by `fuel = days` rounds does not occur. -/
def skipYears (yShift : Int) : Nat → Date → Date
  | 0, d => d
  | fuel + 1, d =>
    if d.days ≥ 365 then
      let daysInYear := if isLeapYear (d.newYear + yShift) then 366 else 365
      if d.days < daysInYear then d
      else skipYears yShift fuel { d with newYear := d.newYear + 1, days := d.days - daysInYear }
    else d

/-- `while (days <= -365)`. -/
def skipYearsBack (yShift : Int) : Nat → Date → Date
  | 0, d => d
  | fuel + 1, d =>
    if d.days ≤ -365 then
      let daysInYear := if isLeapYear (d.newYear + yShift) then -366 else -365
      if d.days > daysInYear then d
      else
        skipYearsBack yShift fuel { d with newYear := d.newYear - 1, days := d.days - daysInYear }
    else d

variable (d : Date)

def carryDay : Date :=
  if d.newDay > 28 then
    let monthDays := daysInMonth d.newYear d.newMonth
    if d.newDay > monthDays then
      { d with newDay := d.newDay - monthDays, newMonth := d.newMonth + 1 }
    else d
  else d

def forwardDay : Date :=
  let monthDays := daysInMonth d.newYear d.newMonth
  let d : Date :=
    if d.days ≥ monthDays then { d with newMonth := d.newMonth + 1, days := d.days - monthDays }
    else
      let newDay := d.newDay + d.days
      if newDay > monthDays then
        { d with newMonth := d.newMonth + 1, newDay := newDay - monthDays, days := 0 }
      else { d with newDay := newDay, days := 0 }
  let d : Date := if d.newMonth > 12 then { d with newMonth := 1, newYear := d.newYear + 1 } else d
  carryDay d

/-- `while (days > 0)`. -/
def forwardDays : Nat → Date → Date
  | 0, d => d
  | fuel + 1, d => if d.days > 0 then forwardDays fuel (forwardDay d) else d

def backwardDay : Date :=
  if -d.days < d.newDay then { d with newDay := d.newDay + d.days, days := 0 }
  else
    let newMonth := d.newMonth - 1
    let newYear := if newMonth < 1 then d.newYear - 1 else d.newYear
    let newMonth := if newMonth < 1 then 12 else newMonth
    let monthDays := daysInMonth newYear newMonth
    if -d.days ≥ monthDays then ⟨newYear, newMonth, d.newDay, d.days + monthDays⟩
    else ⟨newYear, newMonth, d.newDay + (monthDays + d.days), 0⟩

/-- `while (days < 0)`. -/
def backwardDays : Nat → Date → Date
  | 0, d => d
  | fuel + 1, d => if d.days < 0 then backwardDays fuel (backwardDay d) else d

def daysPer400years : Int := 97 * 366 + 303 * 365

def skip400years : Date :=
  if d.days ≥ daysPer400years ∨ d.days ≤ -daysPer400years then
    let factor400years := d.days.tdiv daysPer400years
    { d with newYear := d.newYear + factor400years * 400
             days := d.days - factor400years * daysPer400years }
  else d

/-- The days of `add(years, months, days)`, before months and years are added. -/
def moveDays : Date :=
  let d := skip400years d
  let d :=
    if d.days ≥ 365 then skipYears (if d.newMonth ≥ 3 then 1 else 0) d.days.natAbs d
    else if d.days ≤ -365 then skipYearsBack (if d.newMonth ≥ 3 then 0 else -1) d.days.natAbs d
    else d
  let d := forwardDays d.days.natAbs d
  backwardDays d.days.natAbs d

def moveMonths (years months : Int) (d : Date) : Option Date := do
  let d ← if months ≠ 0 then do
      let (newMonth, yearsCarry) ← addAndComputeCarry (d.newMonth - 1) 12 months 0
      let newYear ←
        if yearsCarry ≠ 0 then addWithoutOverflow d.newYear yearsCarry else some d.newYear
      some { d with newMonth := newMonth + 1, newYear := newYear }
    else some d
  let newYear ← if years ≠ 0 then addWithoutOverflow d.newYear years else some d.newYear
  some { d with newYear := newYear }

/-- The function `add(years, months, days)`. -/
def addDate (years months days : Int) : Bool × DateAndTime :=
  if t.isValid then
    match moveMonths years months (moveDays ⟨t.getYear, t.getMonth, t.getDay, days⟩) with
    | none => (false, t)
    | some d =>
      let d := carryDay d
      if d.newYear < 0 ∨ d.newYear > 0xffff then (false, t)
      else (true, t.setDate d.newYear.toNat d.newMonth.toNat d.newDay.toNat)
  else (false, t)

def moveTime (hours minutes seconds millisecs microsecs : Int) : Option (DateAndTime × Int) := do
  let (newMicrosec, millisecCarry) ← addField t.getMicrosecDuringMillisec 1000 microsecs 0
  let (newMillisec, secCarry) ← addField t.getMillisec 1000 millisecs millisecCarry
  let (newSec, minuteCarry) ← addField t.getSecond 60 seconds secCarry
  let (newMinute, hourCarry) ← addField t.getMinute 60 minutes minuteCarry
  let (newHour, dayCarry) ← addField t.getHour 24 hours hourCarry
  some (t.setTime newHour.toNat newMinute.toNat newSec.toNat newMillisec.toNat newMicrosec.toNat,
    dayCarry)

def add (years months days hours minutes seconds millisecs microsecs : Int) : Bool × DateAndTime :=
  match moveTime t hours minutes seconds millisecs microsecs with
  | none => (false, t)
  | some (t, dayCarry) =>
    if dayCarry ≠ 0 ∨ days ≠ 0 ∨ months ≠ 0 ∨ years ≠ 0 then
      match if dayCarry ≠ 0 then addWithoutOverflow days dayCarry else some days with
      | none => (false, t)
      | some days => addDate t years months days
    else (true, t)

def addMillisec (millisec : Int) : Bool × DateAndTime := t.add 0 0 0 0 0 0 millisec 0

/-- The value `UINT64_MAX`. -/
def durationError : Nat := 2 ^ 64 - 1

/-- One round of the search for the days between two dates; the days added so far. -/
def closeIn (last : DateAndTime) (st : DateAndTime × Int) : DateAndTime × Int :=
  let (begin, totalDays) := st
  if begin.value = last.value then st
  else
    let dayDiff : Int := last.getDay - begin.getDay
    let monthDiff : Int := last.getMonth - begin.getMonth
    let yearDiff : Int := last.getYear - begin.getYear
    let days := yearDiff * 365 + monthDiff * 28
    let days := if days = 0 then dayDiff else days
    ((begin.addDate 0 0 days).2, totalDays + days)

def durationMicrosec (t dt : DateAndTime) : Nat :=
  if !t.isValid || !dt.isValid then durationError
  else if t.value = dt.value then 0
  else
    let (begin, last) := if t > dt then (dt, t) else (t, dt)
    let microDiff : Int := last.getMicrosecDuringMillisec - begin.getMicrosecDuringMillisec
    let milliDiff : Int := last.getMillisec - begin.getMillisec
    let secondDiff : Int := last.getSecond - begin.getSecond
    let minuteDiff : Int := last.getMinute - begin.getMinute
    let hourDiff : Int := last.getHour - begin.getHour
    let totalMicrosec :=
      (((hourDiff * 60 + minuteDiff) * 60 + secondDiff) * 1000 + milliDiff) * 1000 + microDiff
    let begin := (begin.add 0 0 0 hourDiff minuteDiff secondDiff milliDiff microDiff).2
    let (begin, totalDays) := (closeIn last)^[10] (begin, 0)
    if begin.value ≠ last.value then durationError
    else (uint64 (totalMicrosec + totalDays * (24 * 60 * 60 * 1000 * 1000))).toNat

end DateAndTime

end QubicCore.Qpi
