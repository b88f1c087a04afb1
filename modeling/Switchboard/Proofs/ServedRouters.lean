import Switchboard.Control.Server
import Switchboard.Proofs.RouterInvariants
import Switchboard.Proofs.SettingsRange

/-!
# Routers that are served

A router that is served starts with settings that were loaded and with a log, and then answers
requests and takes comments, while its files and the network behave in any way. The settings stay
within their bounds, and the capacity of the log stays one that a log can have, whatever is asked
for.
-/
namespace Switchboard

namespace Log

/-- The capacity, if there is one, fits a machine word. -/
def Sized (log : Log) : Prop := ∀ n, log.capacity = some n → n < 2 ^ 63

theorem sized_of_capacityOf {v : Value} {capacity : Option Nat} (h : capacityOf v = .ok capacity) :
    ∀ n, capacity = some n → n < 2 ^ 63 := by
  unfold capacityOf at h
  split at h
  · obtain rfl := Except.ok.inj h
    exact nofun
  · rename_i b
    obtain rfl := Except.ok.inj h
    rintro _ ⟨⟩
    cases b <;> decide
  · split at h
    · cases h
    · split at h
      · cases h
      · rename_i hrange hsign
        obtain rfl := Except.ok.inj h
        rintro _ ⟨⟩
        omega
  · cases h

theorem Sized.resizeTo {log after : Log} (h : log.Sized) {v : Value}
    (hr : log.resizeTo v = .ok after) : after.Sized := by
  rcases resizeTo_eq_ok hr with ⟨rfl, -⟩ | ⟨capacity, hc, rfl⟩
  · exact h
  · exact sized_of_capacityOf hc

/-- A log can be given any capacity that fits a machine word, and no other. -/
theorem Sized.faults_resizeTo {log : Log} (h : log.Sized) {n : Int} (hn : 0 ≤ n) :
    Faults (log.resizeTo (.int n)) ↔ 2 ^ 63 ≤ n := by
  have hgo : Faults (Log.resizeTo.go log (.int n)) ↔ 2 ^ 63 ≤ n := by
    unfold Log.resizeTo.go
    rw [faults_bind_pure, capacityOf]
    split
    · simp only [faults_error, true_iff]
      omega
    · split
      · omega
      · simp only [not_faults_ok, false_iff]
        omega
  unfold Log.resizeTo
  split
  · rename_i m hm
    have hlt := h m hm
    split
    · rename_i hsame
      have he : n = m := by simpa using hsame
      simp only [not_faults_ok, false_iff]
      omega
    · exact hgo
  · exact hgo

/-- Counting keeps the capacity. -/
theorem countName_capacity {log counted : Log} {t : Traffic} (h : log.countName t = .ok counted) :
    counted.capacity = log.capacity := by
  unfold countName at h
  split at h
  · split at h
    · exact Except.ok.inj h ▸ rfl
    · split at h
      · exact Except.ok.inj h ▸ rfl
      · cases h
  · split at h
    · exact Except.ok.inj h ▸ rfl
    · cases h

theorem record_capacity (log : Log) (now : Int) (t : Traffic) (data : Value)
    (extra : Record Value) : (log.record now t data extra).1.capacity = log.capacity := by
  have hkept : ∀ e : Entry, ((log.append e).countTotal t).capacity = log.capacity := by
    intro e
    cases t <;> rfl
  unfold record
  split
  · rfl
  · dsimp only
    split
    · rename_i counted hc
      exact (countName_capacity hc).trans (hkept _)
    · exact hkept _

end Log

namespace Router

/-- The settings are within their bounds, and so is the capacity of the log. -/
structure Sound (r : Router) : Prop where
  settings : r.settings.current.InRange
  log : r.log.Sized

variable {r : Router}

theorem Sound.withLog (h : r.Sound) {log : Log} (hc : log.capacity = r.log.capacity) :
    Sound { r with log } := ⟨h.settings, fun n hn => h.log n (hc ▸ hn)⟩

/-- Routing changes neither the settings nor the capacity. -/
theorem stable_sound : Stable Sound where
  recorded {r} h now service processed data :=
    h.withLog (r.log.record_capacity now (.incoming service processed) data [])
  delivered h _ hdeliver := by
    obtain ⟨sender, network, -, rfl⟩ := deliver_eq_ok hdeliver
    refine ⟨h.settings, fun n hn => h.log n ?_⟩
    rwa [Log.record_capacity] at hn
  settled h _ := h.withLog rfl

theorem Sound.follow (h : r.Sound) (s : Settings) : (Control.follow r s).1.Sound := by
  unfold Control.follow
  dsimp only
  split
  · rename_i log hl
    exact ⟨h.settings, h.log.resizeTo hl⟩
  · exact ⟨h.settings, h.log⟩

theorem Sound.updateSettings (h : r.Sound) (q : Control.Request) (now : Int) :
    (Control.updateSettings r q now).1.Sound := by
  have hkept : ∀ {changes settings kept result}, r.settings.update changes = .ok settings →
      settings.save now = (kept, result) → Sound { r with settings := kept } := by
    intro changes settings kept result hu hs
    have hrange := SettingsFile.inRange_save (SettingsFile.inRange_of_update hu) now
    rw [hs] at hrange
    exact ⟨hrange, h.log⟩
  fun_cases Control.updateSettings r q now with
  | case1 | case2 => exact h
  | case3 _ _ _ hu _ _ hs => exact hkept hu hs
  | case4 _ _ settings hu _ _ hs _ hfollow =>
    have hafter := (hkept hu hs).follow settings.current
    rwa [hfollow] at hafter
  | case5 _ _ settings hu _ _ hs _ _ hfollow =>
    have hafter := (hkept hu hs).follow settings.current
    rwa [hfollow] at hafter

theorem Sound.ping (h : r.Sound) (now : Int) (host port : Value) :
    (r.ping now host port).1.Sound := by
  rcases r.ping_cases now host port with he | he
  · exact he ▸ stable_sound.sendTests h now testEndpoints
  · have hsent := stable_sound.sendTests
      (r := { r with sender := r.sender.forTarget (r.aim host port) })
      ⟨h.settings, h.log⟩ now testEndpoints
    exact he ▸ ⟨hsent.settings, hsent.log⟩

/-- A property that routing keeps is kept by every request if tests of the connection, other rules
and a cleared log keep it, and the change of settings that the request may be. -/
theorem Stable.answer {P : Router → Prop} (s : Stable P)
    (tested : ∀ {r : Router}, P r → ∀ now host port, P (r.ping now host port).1)
    (ruled : ∀ {r : Router}, P r → ∀ book, P { r with book })
    (cleared : ∀ {r : Router}, P r → P { r with log := r.log.clear })
    (h : P r) (q : Control.Request) (now : Int)
    (updated : Control.Route.find q = .ok .updateSettings → P (Control.updateSettings r q now).1) :
    P (Control.answer r q now).1 := by
  unfold Control.answer
  split
  · rename_i route hroute
    cases route with
    | addRule =>
      change P (Control.addRule r q now).1
      unfold Control.addRule
      split
      · exact h
      · exact ruled h _
    | updateRule id =>
      change P (Control.updateRule r q id now).1
      unfold Control.updateRule
      split
      · exact h
      · exact ruled h _
    | deleteRule id => exact ruled h _
    | updateSettings => exact updated hroute
    | ping =>
      change P (Control.ping r q now).1
      fun_cases Control.ping r q now with
      | case1 => exact h
      | case2 host port _ _ _ hp | case3 host port _ _ _ hp =>
        have hping := tested h now host port
        rwa [hp] at hping
    | ingest =>
      change P (Control.ingest r q now).1
      unfold Control.ingest
      split
      · exact h
      · rename_i comments _
        have hhandle := s.handle h now comments
        split <;> simpa only [*] using hhandle
    | clearLogs => exact cleared h
    | _ => exact h
  · exact h

theorem Sound.answer (h : r.Sound) (q : Control.Request) (now : Int) :
    (Control.answer r q now).1.Sound :=
  stable_sound.answer (fun h => h.ping) (fun h _ => ⟨h.settings, h.log⟩) (fun h => h.withLog rfl)
    h q now fun _ => h.updateSettings q now

/-- The routers that a server comes to. It starts with settings and a log, and with any rules and
any sender. It answers requests, takes comments that come in by other ways, and reads the rules
again; others may write its two files, and the network changes in any way. -/
inductive Served : Router → Prop
  | start {book : RuleBook} {sender : Osc.Sender} {settings : SettingsFile} {log : Log}
    {network : Osc.Network} {r : Router} (managed : settings.Managed) (sized : log.Sized)
    (started : Router.start book sender settings log network = .ok r) : Served r
  | answer {r : Router} (q : Control.Request) (now : Int) (before : Served r) :
    Served (Control.answer r q now).1
  | handle {r : Router} (now : Int) (comments : List Value) (before : Served r) :
    Served (r.handle now comments).1
  | reload {r : Router} (before : Served r) : Served { r with book := r.book.reload.1 }
  | rulesFile {r : Router} (file : RuleFile) (before : Served r) :
    Served { r with book := { r.book with file := r.book.file.map fun _ => file } }
  | settingsFile {r : Router} (file : File) (before : Served r) :
    Served { r with settings := { r.settings with file } }
  | network {r : Router} (network : Osc.Network) (before : Served r) : Served { r with network }

theorem sound_of_start {book : RuleBook} {sender : Osc.Sender} {settings : SettingsFile} {log : Log}
    {network : Osc.Network} (managed : settings.Managed) (sized : log.Sized)
    (h : Router.start book sender settings log network = .ok r) : r.Sound := by
  unfold Router.start at h
  split at h
  · cases hc : Log.capacityOf (.int settings.current.maxLogMessages) with
    | error f => simp [hc, bind, Except.bind] at h
    | ok capacity =>
      simp only [hc, bind, Except.bind, pure, Except.pure, Except.ok.injEq] at h
      subst h
      exact ⟨managed.inRange, Log.sized_of_capacityOf hc⟩
  · simp only [bind, Except.bind, pure, Except.pure, Except.ok.injEq] at h
    subst h
    exact ⟨managed.inRange, sized⟩

theorem Served.sound (h : Served r) : r.Sound := by
  induction h with
  | start managed sized started => exact sound_of_start managed sized started
  | answer q now _ ih => exact ih.answer q now
  | handle now comments _ ih => exact stable_sound.handle ih now comments
  | reload _ ih | rulesFile _ _ ih | settingsFile _ _ ih | network _ _ ih =>
    exact ⟨ih.settings, ih.log⟩

end Router

end Switchboard
