import Solvan.Base.Calendar

namespace Solvan

/-! Moments are microseconds since the epoch, the resolution of `timestamptz`. -/

def milliseconds (n : Nat) : Int := n * 1000

/-- A claim or lease token, from `uuid4`. -/
abbrev Token := Nat

structure Scope where
  organizationId : String
  projectId : String
  environmentId : String
deriving DecidableEq, Repr

/-- The epoch on the clock that starts with year 1. -/
def epoch : Int := 62135596800000000

/-- A `datetime`: the time on the wall, counted from year 1, and how far that
clock is ahead of UTC if it says so. -/
structure Datetime where
  wall : Nat
  utcoffset : Option Int
  inRange : wall < Calendar.maxMicros
deriving DecidableEq

def Datetime.aware (d : Datetime) : Bool := d.utcoffset.isSome

def Datetime.instant (d : Datetime) : Int := d.wall - d.utcoffset.getD 0 - epoch

/-- `astimezone(UTC).isoformat(timespec="microseconds").replace("+00:00", "Z")`,
or none where the UTC time leaves the calendar. -/
def Datetime.utcText (d : Datetime) : Option String :=
  let micros := d.instant + epoch
  if 0 ≤ micros ∧ micros < Calendar.maxMicros then
    some (String.ofList (Calendar.isoformat micros.toNat ++ ['Z']))
  else none

/-- One text stands for one moment, whatever offset it was given in. -/
theorem Datetime.utcText_inj {d e : Datetime} {text : String} (hd : d.utcText = some text)
    (he : e.utcText = some text) : d.instant = e.instant := by
  unfold Datetime.utcText at hd he
  by_cases hdr : 0 ≤ d.instant + epoch ∧ d.instant + epoch < Calendar.maxMicros
  · by_cases her : 0 ≤ e.instant + epoch ∧ e.instant + epoch < Calendar.maxMicros
    · simp only [hdr, her, and_self, ↓reduceIte, Option.some.injEq] at hd he
      have hiso := List.append_inj_left' (String.ofList_injective (hd.trans he.symm)) rfl
      have hmicros := Calendar.isoformat_inj (by omega) (by omega) hiso
      omega
    · simp [her] at he
  · simp [hdr] at hd

end Solvan
