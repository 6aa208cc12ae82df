import SkillLayer.Domain.Types

/-! Default deadlines of pending lifecycle artifacts, on a clock that counts seconds. -/

namespace SkillLayer.Domain

/-- Seconds since the epoch. -/
abbrev Timestamp := Int

def secondsPerDay : Int := 86400

def pendingDefaultWarningAfterDays : Int := 30
def pendingDefaultExpiryAfterDays : Int := 90

def pendingDefaultWarningAt (createdAt : Timestamp) : Timestamp :=
  createdAt + pendingDefaultWarningAfterDays * secondsPerDay

def pendingDefaultExpiresAt (createdAt : Timestamp) : Timestamp :=
  createdAt + pendingDefaultExpiryAfterDays * secondsPerDay

end SkillLayer.Domain
