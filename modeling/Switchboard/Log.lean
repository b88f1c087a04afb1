import Switchboard.Value.Key

/-!
# The message log

The log keeps the newest entries up to its capacity. Its totals count every entry since it was
last cleared, and its rate counts those of the last two seconds before the newest one.
-/
namespace Switchboard

inductive Traffic
  | incoming (service : Value) (processed : Bool)
  | outgoing (endpoint : Value) (success : Bool)

namespace Traffic

def direction : Traffic → String
  | .incoming _ _ => "incoming"
  | .outgoing _ _ => "outgoing"

def fields : Traffic → Record Value
  | .incoming service processed => [("service", service), ("processed", .bool processed)]
  | .outgoing endpoint success => [("endpoint", endpoint), ("success", .bool success)]

/-- The names that a further field of an entry may not have. -/
def ownNames : Traffic → List String
  | .incoming _ _ => ["self", "service", "data", "processed"]
  | .outgoing _ _ => ["self", "endpoint", "payload", "success"]

end Traffic

structure Log.Entry where
  id : Nat
  /-- Milliseconds since 1970. -/
  time : Int
  traffic : Traffic
  data : Value
  extra : Record Value := []

def Log.seconds (ms : Int) : Double := .ofRatio (ms < 0) ms.natAbs 1000

def Log.Entry.toRecord (e : Log.Entry) : Record Value :=
  Record.merge
    ([("id", .int e.id), ("timestamp", .double (Log.seconds e.time)),
      ("direction", .text e.traffic.direction), ("data", e.data)] ++ e.traffic.fields)
    e.extra

/-- Counts by key. Numbers that are equal are one key. -/
abbrev Tally := List (Value × Nat)

namespace Tally

def add (key : Value) : Tally → Tally
  | [] => [(key, 1)]
  | (k, n) :: t => if k.sameKey key then (k, n + 1) :: t else (k, n) :: add key t

def total : Tally → Nat
  | [] => 0
  | (_, n) :: t => n + total t

def toValue (t : Tally) : Value := .ofEntries (t.map fun p => (p.1, .int p.2))

@[simp] theorem total_nil : total [] = 0 := rfl

@[simp] theorem total_add (key : Value) (t : Tally) : (add key t).total = t.total + 1 := by
  induction t with
  | nil => rfl
  | cons p t ih =>
    obtain ⟨k, n⟩ := p
    by_cases h : k.sameKey key = true
    · simp [add, h, total]
      omega
    · simp [add, h, total, ih]
      omega

end Tally

structure Log where
  /-- How many entries are kept; none for no bound. -/
  capacity : Option Nat
  /-- The oldest entry comes first. -/
  entries : List Log.Entry := []
  nextId : Nat := 1
  incoming : Nat := 0
  outgoing : Nat := 0
  errors : Nat := 0
  endpoints : Tally := []
  services : Tally := []
  /-- The times of the entries that the rate counts. -/
  recent : List Int := []

namespace Log

def defaultCapacity : Nat := 100

/-- The last items of a list, as many as fit. -/
def newest {α : Type} : Option Nat → List α → List α
  | none, items => items
  | some n, items => items.drop (items.length - n)

/-- The capacity that a value stands for. It must fit a machine word and not be negative. -/
def capacityOf : Value → Except Fault (Option Nat)
  | .null => .ok none
  | .bool b => .ok (some b.toNat)
  | .int n =>
    if 2 ^ 63 ≤ n ∨ n < -2 ^ 63 then .error .numberTooLarge
    else if n < 0 then .error .negativeCapacity
    else .ok (some n.toNat)
  | _ => .error .notANumber

def empty (capacity : Option Nat) : Log := { capacity := capacity }

def resize (log : Log) (capacity : Option Nat) : Log :=
  { log with capacity := capacity, entries := newest capacity log.entries }

/-- Changes the capacity to the one that a value stands for. The capacity that the log has may
also be given as a double. -/
def resizeTo (log : Log) (v : Value) : Except Fault Log :=
  match log.capacity with
  | some n => if v.sameKey (.int n) then .ok log else go
  | none => go
where
  go : Except Fault Log := do return log.resize (← capacityOf v)

/-- Forgets the entries and the counts; the ids go on. -/
def clear (log : Log) : Log := { capacity := log.capacity, nextId := log.nextId }

def rateWindow : Int := 2000

def rate (log : Log) : Double := .ofRatio false log.recent.length 2

/-- Puts an entry at the end; the oldest one goes when the log is full. -/
def append (log : Log) (e : Entry) : Log :=
  { log with entries := newest log.capacity (log.entries ++ [e]), nextId := log.nextId + 1 }

def countTotal (log : Log) : Traffic → Log
  | .incoming _ _ => { log with incoming := log.incoming + 1 }
  | .outgoing _ _ => { log with outgoing := log.outgoing + 1 }

/-- Counts an entry by its endpoint or its service, of which an empty one is not counted. -/
def countName (log : Log) : Traffic → Except Fault Log
  | .incoming service _ =>
    if !service.given then .ok log
    else if service.isKey then .ok { log with services := log.services.add service }
    else .error .unhashableKey
  | .outgoing endpoint success =>
    if endpoint.isKey then
      .ok { log with
        endpoints := log.endpoints.add endpoint
        errors := if success then log.errors else log.errors + 1 }
    else .error .unhashableKey

def countTime (log : Log) (now : Int) : Log :=
  { log with recent := (log.recent ++ [now]).dropWhile (· < now - rateWindow) }

/-- Records an entry. One whose endpoint or service cannot be counted is kept nevertheless, with
a fault. -/
def record (log : Log) (now : Int) (traffic : Traffic) (data : Value) (extra : Record Value) :
    Log × Except Fault Entry :=
  if extra.any fun p => traffic.ownNames.contains p.1 then (log, .error .reservedName) else
  let e : Entry := ⟨log.nextId, now, traffic, data, extra⟩
  let kept := (log.append e).countTotal traffic
  match kept.countName traffic with
  | .ok counted => (counted.countTime now, .ok e)
  | .error f => (kept, .error f)

def select (log : Log) (direction : Option String) (limit : Option Int) : List Entry :=
  let found := match direction with
    | none => log.entries
    | some d => if d = "" then log.entries else log.entries.filter (·.traffic.direction = d)
  match limit with
  | none => found
  | some n => if n < 0 then found else newest (some n.toNat) found

/-- The number of entries that a value asks for; none for all of them, which a number below zero
and one that is no number also stand for. -/
def limitOf : Value → Except Fault (Option Int)
  | .null => .ok none
  | .int n => .ok (some n)
  | .bool b => .ok (some b.toNat)
  | .double x =>
    if x.isNaN || x.lt .zero then .ok none
    else if x.isZero then .ok (some 0)
    else .error .notANumber
  | _ => .error .notANumber

/-- The entries that two values ask for. No entry has a direction that is no text. -/
def selectBy (log : Log) (direction limit : Value) : Except Fault (List Entry) := do
  let limit ← limitOf limit
  return match direction with
  | .text d => log.select (some d) limit
  | v => if v.given then [] else log.select none limit

def stats (log : Log) : Record Value :=
  [("stored", .int log.entries.length),
   ("capacity", match log.capacity with | some n => .int n | none => .null),
   ("incoming", .int log.incoming), ("outgoing", .int log.outgoing),
   ("errors", .int log.errors), ("rate", .double log.rate),
   ("endpoints", log.endpoints.toValue), ("services", log.services.toValue)]

/-- The capacity, with the default in the place of none and of zero. -/
def nominalCapacity (log : Log) : Nat :=
  match log.capacity with
  | some n => if n = 0 then defaultCapacity else n
  | none => defaultCapacity

@[simp] theorem newest_none {α : Type} (items : List α) : newest none items = items := rfl

theorem length_newest {α : Type} (n : Nat) (items : List α) :
    (newest (some n) items).length = min n items.length := by
  simp [newest]
  omega

@[simp] theorem resize_capacity (log : Log) (c : Option Nat) : (log.resize c).capacity = c := rfl

@[simp] theorem clear_nextId (log : Log) : log.clear.nextId = log.nextId := rfl

theorem resizeTo_eq_ok {log after : Log} {v : Value} (h : log.resizeTo v = .ok after) :
    (after = log ∧ ∃ n, log.capacity = some n ∧ v.sameKey (.int n) = true) ∨
      ∃ capacity, capacityOf v = .ok capacity ∧ after = log.resize capacity := by
  have hgo : resizeTo.go log v = .ok after →
      ∃ capacity, capacityOf v = .ok capacity ∧ after = log.resize capacity := by
    intro hgo
    unfold resizeTo.go at hgo
    cases hc : capacityOf v with
    | error f => simp [hc, bind, Except.bind] at hgo
    | ok capacity =>
      simp only [hc, bind, Except.bind, pure, Except.pure, Except.ok.injEq] at hgo
      exact ⟨capacity, rfl, hgo.symm⟩
  unfold resizeTo at h
  split at h
  · rename_i n hn
    split at h
    · rename_i hsame
      exact Or.inl ⟨(Except.ok.inj h).symm, n, hn, hsame⟩
    · exact Or.inr (hgo h)
  · exact Or.inr (hgo h)

end Log

end Switchboard
