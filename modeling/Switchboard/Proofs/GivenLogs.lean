import Switchboard.Proofs.LoggedTraffic

/-!
# The log that a router is given

A log that counts as false when it has no entries gives way to a new one. So a router uses the log
that it is given, and what it is asked to do shows there, exactly if the log has been used before.
-/
namespace Switchboard

namespace Router

variable {book : RuleBook} {sender : Osc.Sender} {settings : SettingsFile} {given : Log}
  {network : Osc.Network}

theorem start_of_used (used : given.entries ≠ []) :
    start book sender settings given network = .ok ⟨book, sender, settings, given, network⟩ := by
  have hempty : given.entries.isEmpty = false := by simpa using used
  unfold start
  rw [hempty]
  rfl

theorem start_of_unused (unused : given.entries = []) :
    start book sender settings given network =
      (Log.capacityOf (.int settings.current.maxLogMessages)).map fun capacity =>
        ⟨book, sender, settings, .empty capacity, network⟩ := by
  have hempty : given.entries.isEmpty = true := by simpa using unused
  unfold start
  rw [hempty]
  cases Log.capacityOf (.int settings.current.maxLogMessages) <;> rfl

/-- A router that is given a log with entries has that log, and after any calls it is the given log
with what these calls note. A router that is given a log without entries has a new log instead, with
the capacity of the settings, and what the calls note is found in that one. It cannot be made if
there is no such capacity. -/
theorem start_log (book : RuleBook) (sender : Osc.Sender) (settings : SettingsFile) (given : Log)
    (network : Osc.Network) :
    (given.entries ≠ [] → ∃ r, start book sender settings given network = .ok r ∧ r.log = given ∧
      ∀ cs, (r.afterCalls cs).log.bare = given.bare.noted (r.allNotes cs)) ∧
    (given.entries = [] →
      ∀ capacity, Log.capacityOf (.int settings.current.maxLogMessages) = .ok capacity →
        ∃ r, start book sender settings given network = .ok r ∧ r.log = .empty capacity ∧
          ∀ cs, (r.afterCalls cs).log.bare = (Log.empty capacity).noted (r.allNotes cs)) ∧
    (given.entries = [] →
      ∀ f, Log.capacityOf (.int settings.current.maxLogMessages) = .error f →
        start book sender settings given network = .error f) := by
  refine ⟨?_, ?_, ?_⟩
  · intro used
    refine ⟨_, start_of_used used, rfl, ?_⟩
    intro cs
    exact afterCalls_logged _ cs
  · intro unused capacity hcapacity
    refine ⟨⟨book, sender, settings, .empty capacity, network⟩, ?_, rfl, ?_⟩
    · rw [start_of_unused unused, hcapacity]
      rfl
    · intro cs
      exact afterCalls_logged _ cs
  · intro unused f hf
    rw [start_of_unused unused, hf]
    rfl

/-- A log of five entries at most, which has one. -/
def usedLog : Log := ((Log.empty (some 5)).record 0 (.incoming (.text "niconico") true) .null []).1

theorem start_log_used : ∃ r, start {} chatRouter.sender {} usedLog {} = .ok r ∧ r.log = usedLog ∧
    (r.called (.route 7 chatComment)).log.bare = usedLog.bare.noted (r.notes (.route 7 chatComment)) ∧
    (r.notes (.route 7 chatComment)).length = 3 := by
  obtain ⟨r, hr, hlog, hafter⟩ :=
    (start_log {} chatRouter.sender {} usedLog {}).1 (List.cons_ne_nil _ _)
  have hnotes := hafter [.route 7 chatComment]
  obtain rfl := Except.ok.inj (hr.symm.trans (start_of_used (List.cons_ne_nil _ _)))
  refine ⟨_, hr, hlog, ?_, by decide +kernel⟩
  simpa [afterCalls, allNotes] using hnotes

/-- A new log of five entries at most gives way to one of a hundred. -/
theorem start_log_unused : ∃ r, start {} chatRouter.sender {} (.empty (some 5)) {} = .ok r ∧
    r.log.capacity = some 100 ∧ (r.called (.test 0 .null .null)).log.entries.length = 4 := by
  refine ⟨_, start_of_unused rfl, ?_⟩
  decide +kernel

end Router

end Switchboard
