/-!
# Platforms

The streaming platforms whose messages are understood.
-/
namespace Switchboard

inductive Platform
  | youtube
  | bilibili
  | niconico
  | twitch
  deriving DecidableEq

namespace Platform

def name : Platform → String
  | .youtube => "youtube"
  | .bilibili => "bilibili"
  | .niconico => "niconico"
  | .twitch => "twitch"

def all : List Platform := [.youtube, .bilibili, .niconico, .twitch]

def ofName? (s : String) : Option Platform := all.find? (·.name == s)

@[simp] theorem ofName?_name (p : Platform) : ofName? p.name = some p := by cases p <;> rfl

end Platform

end Switchboard
