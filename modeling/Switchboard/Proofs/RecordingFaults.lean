import Switchboard.Log

/-!
# Recordings that fail

What comes in is kept and counted by its direction before its service is looked up among the counts.
A service that has parts cannot be looked up, so that such a recording fails halfway. All others are
done as a whole, or refused before anything is done.
-/
namespace Switchboard

/-- A list, a record or a table that is not empty. -/
def Value.IsFilled : Value → Prop
  | .list items => items ≠ []
  | .record fields => fields ≠ []
  | .table entries => entries ≠ []
  | _ => False

theorem Value.isFilled_iff (v : Value) :
    v.IsFilled ↔ v.given = true ∧ v.isKey = false := by
  cases v <;> simp [IsFilled, given, isKey]

namespace Log

/-- A recording gives an entry, or it fails and leaves the log as it was. -/
def AllOrNothing (log : Log) (outcome : Log × Except Fault Entry) : Prop :=
  (∃ e, outcome.2 = .ok e) ∨ (∃ f, outcome.2 = .error f) ∧ outcome.1 = log

/-- What has come in is kept as the newest entry, if there is room, and counted by its direction.
What goes out has no part in that. -/
structure Keeps (log : Log) (e : Entry) (after : Log) : Prop where
  capacity : after.capacity = log.capacity
  entries : after.entries = newest log.capacity (log.entries ++ [e])
  nextId : after.nextId = log.nextId + 1
  incoming : after.incoming = log.incoming + 1
  outgoing : after.outgoing = log.outgoing
  errors : after.errors = log.errors
  endpoints : after.endpoints = log.endpoints

/-- The entry is also counted by its service, if it has one, and by its time. -/
structure Completes (log : Log) (e : Entry) (service : Value) (after : Log) : Prop where
  kept : log.Keeps e after
  services : after.services = if service.given then log.services.add service else log.services
  recent : after.recent = (log.recent ++ [e.time]).dropWhile (· < e.time - rateWindow)

/-- The entry is counted neither by its service nor by its time. -/
structure Breaks (log : Log) (e : Entry) (after : Log) : Prop where
  kept : log.Keeps e after
  services : after.services = log.services
  recent : after.recent = log.recent

/-- A further field has a name that is taken. -/
def IsReserved (traffic : Traffic) (extra : Record Value) : Prop :=
  ∃ p ∈ extra, p.1 ∈ traffic.ownNames

section Incoming

variable (log : Log) (now : Int) {service : Value} (processed : Bool) (data : Value)
  {extra : Record Value}

theorem record_of_isReserved {traffic : Traffic} (h : IsReserved traffic extra) :
    log.record now traffic data extra = (log, .error .reservedName) := by
  have hreserved : (extra.any fun p => traffic.ownNames.contains p.1) = true := by
    simpa [IsReserved, List.any_eq_true] using h
  unfold record
  rw [if_pos hreserved]

theorem record_of_not_isReserved {traffic : Traffic} (h : ¬ IsReserved traffic extra) :
    let e : Entry := ⟨log.nextId, now, traffic, data, extra⟩
    let kept := (log.append e).countTotal traffic
    log.record now traffic data extra =
      match kept.countName traffic with
      | .ok counted => (counted.countTime now, .ok e)
      | .error f => (kept, .error f) := by
  have hfree : ¬ (extra.any fun p => traffic.ownNames.contains p.1) = true := by
    simpa [IsReserved, List.any_eq_true] using h
  exact if_neg hfree

/-- What has no service, or one without parts, is recorded as a whole. -/
theorem record_of_not_isFilled (free : ¬ IsReserved (.incoming service processed) extra)
    (h : ¬ service.IsFilled) :
    let e : Entry := ⟨log.nextId, now, .incoming service processed, data, extra⟩
    let outcome := log.record now (.incoming service processed) data extra
    outcome.2 = .ok e ∧ log.Completes e service outcome.1 := by
  intro e outcome
  rw [Value.isFilled_iff] at h
  have houtcome : outcome = _ := log.record_of_not_isReserved now data free
  by_cases hgiven : service.given = true
  · have hkey : service.isKey = true := by simpa [hgiven] using h
    rw [countName, if_neg (by simp [hgiven]), if_pos hkey] at houtcome
    rw [houtcome]
    exact ⟨rfl, ⟨rfl, rfl, rfl, rfl, rfl, rfl, rfl⟩, (if_pos hgiven).symm, rfl⟩
  · rw [countName, if_pos (by simp [hgiven])] at houtcome
    rw [houtcome]
    exact ⟨rfl, ⟨rfl, rfl, rfl, rfl, rfl, rfl, rfl⟩, (if_neg hgiven).symm, rfl⟩

/-- A service with parts is found out when the entry is already kept. -/
theorem record_of_isFilled (free : ¬ IsReserved (.incoming service processed) extra)
    (h : service.IsFilled) :
    let e : Entry := ⟨log.nextId, now, .incoming service processed, data, extra⟩
    let outcome := log.record now (.incoming service processed) data extra
    outcome.2 = .error .unhashableKey ∧ log.Breaks e outcome.1 := by
  intro e outcome
  obtain ⟨hgiven, hkey⟩ := service.isFilled_iff.mp h
  have houtcome : outcome = _ := log.record_of_not_isReserved now data free
  rw [countName, if_neg (by simp [hgiven]), if_neg (by simp [hkey])] at houtcome
  rw [houtcome]
  exact ⟨rfl, ⟨rfl, rfl, rfl, rfl, rfl, rfl, rfl⟩, rfl, rfl⟩

/-- Recording what has come in gives the new entry, and the log has it everywhere, unless a further
field has a name that is taken, or the service is a list or a record that is not empty. In the first
case the log is as it was. In the second one it has kept the entry, used up its number and counted
it by its direction, but neither by its service nor by its time. So that case is the only one in
which a recording is neither all nor nothing. -/
theorem record_allOrNothing_iff (service : Value) (extra : Record Value) :
    let traffic : Traffic := .incoming service processed
    let e : Entry := ⟨log.nextId, now, traffic, data, extra⟩
    let outcome := log.record now traffic data extra
    (IsReserved traffic extra → outcome = (log, .error .reservedName)) ∧
      (¬ IsReserved traffic extra → ¬ service.IsFilled →
        outcome.2 = .ok e ∧ log.Completes e service outcome.1) ∧
      (¬ IsReserved traffic extra → service.IsFilled →
        outcome.2 = .error .unhashableKey ∧ log.Breaks e outcome.1) ∧
      (log.AllOrNothing outcome ↔ IsReserved traffic extra ∨ ¬ service.IsFilled) := by
  intro traffic e outcome
  have hreserved : IsReserved traffic extra → outcome = (log, .error .reservedName) :=
    log.record_of_isReserved now data
  have hdone : ¬ IsReserved traffic extra → ¬ service.IsFilled →
      outcome.2 = .ok e ∧ log.Completes e service outcome.1 :=
    log.record_of_not_isFilled now processed data
  have hbroken : ¬ IsReserved traffic extra → service.IsFilled →
      outcome.2 = .error .unhashableKey ∧ log.Breaks e outcome.1 :=
    log.record_of_isFilled now processed data
  refine ⟨hreserved, hdone, hbroken, ?_⟩
  by_cases hr : IsReserved traffic extra
  · rw [hreserved hr]
    exact iff_of_true (Or.inr ⟨⟨_, rfl⟩, rfl⟩) (Or.inl hr)
  · by_cases hf : service.IsFilled
    · obtain ⟨hfault, hbreaks⟩ := hbroken hr hf
      refine iff_of_false ?_ (by simp [hr, hf])
      rintro (⟨e, he⟩ | ⟨-, hsame⟩)
      · rw [hfault] at he
        cases he
      · -- the number of the entry is used up
        have hnext := hbreaks.kept.nextId
        rw [hsame] at hnext
        exact Nat.succ_ne_self _ hnext.symm
    · exact iff_of_true (Or.inl ⟨e, (hdone hr hf).1⟩) (Or.inr hf)

/-- A comment with the name of a service is recorded as a whole. -/
theorem record_allOrNothing_text :
    let log := Log.empty (some 1)
    let traffic : Traffic := .incoming (.text "niconico") true
    let outcome := log.record 0 traffic .null []
    log.AllOrNothing outcome ∧ outcome.2 = .ok ⟨1, 0, traffic, .null, []⟩ := by
  intro log traffic outcome
  have hfree : ¬ IsReserved traffic [] := by simp [IsReserved]
  have hfilled : ¬ Value.IsFilled (.text "niconico") := id
  obtain ⟨-, hdone, -, hiff⟩ := record_allOrNothing_iff log 0 true .null (.text "niconico") []
  exact ⟨hiff.mpr (Or.inr hfilled), (hdone hfree hfilled).1⟩

/-- A comment whose service is a list is kept and counted although its recording fails. -/
theorem not_allOrNothing_list :
    ¬ (Log.empty (some 100)).AllOrNothing
      ((Log.empty (some 100)).record 0 (.incoming (.list [.text "niconico"]) false) .null []) := by
  rintro (⟨e, he⟩ | ⟨-, hsame⟩)
  · cases he
  · have hentries := congrArg (fun log : Log => log.entries.length) hsame
    exact absurd hentries (by decide)

end Incoming

end Log

end Switchboard
