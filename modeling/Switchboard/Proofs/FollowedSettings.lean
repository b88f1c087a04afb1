import Switchboard.Proofs.RefusedRequests
import Switchboard.Proofs.SenderAccounting

/-!
# Settings that are followed

A change of the settings that is accepted is passed on to the sender and to the log, and both then
have what the settings say. One value is not passed on: settings may have an empty host, which the
sender takes as none, so that it stays with the host that it had. Nothing but a further change of
the settings parts them afterwards.
-/
namespace Switchboard

theorem Osc.Format.given_name (f : Format) : (Value.text f.name).given = true := by
  cases f <;> rfl

/-- A log that takes a number as its capacity has it afterwards, also where it had it before. -/
theorem Log.capacity_of_resizeTo {log after : Log} {n : Int}
    (h : log.resizeTo (.int n) = .ok after) :
    ∃ m : Nat, after.capacity = some m ∧ (m : Int) = n := by
  rcases resizeTo_eq_ok h with ⟨rfl, m, hm, hsame⟩ | ⟨capacity, hc, rfl⟩
  · have he : n = m := by simpa using hsame
    exact ⟨m, hm, he.symm⟩
  · simp only [capacityOf] at hc
    split at hc
    · cases hc
    · split at hc
      · cases hc
      · obtain rfl := Except.ok.inj hc
        exact ⟨n.toNat, rfl, by omega⟩

/-! ## What a change of the settings passes on -/

namespace Router

/-- The sender has the port and the format of the settings, and the log has their capacity. -/
structure Follows (r : Router) : Prop where
  port : r.sender.target.port = .int r.settings.current.oscPort
  format : r.sender.format = .text r.settings.current.oscMessageFormat.name
  capacity : ∃ n : Nat, r.log.capacity = some n ∧ (n : Int) = r.settings.current.maxLogMessages

/-- The sender also has the host of the settings. -/
structure InStep (r : Router) : Prop extends Follows r where
  host : r.sender.target.host = .text r.settings.current.oscHost

end Router

namespace Control

variable {r after : Router} {q : Request} {now : Int}

theorem follow_eq_none {s : Settings} (h : follow r s = (after, none)) :
    ∃ log, r.log.resizeTo (.int s.maxLogMessages) = .ok log ∧
      after = { r with
        sender := r.sender.retarget (.text s.oscHost) (.int s.oscPort)
          (.text s.oscMessageFormat.name)
        log } := by
  unfold follow at h
  dsimp only at h
  split at h
  · rename_i log hl
    simp only [Prod.mk.injEq, and_true] at h
    exact ⟨log, hl, h.symm⟩
  · simp at h

/-- A change of the settings that is answered by 200 has been accepted and saved, and the sender and
the log have been told. -/
theorem updateSettings_success (h : (updateSettings r q now).2.status = 200) :
    ∃ changes settings kept, q.jsonFields .settings = .ok changes ∧
      r.settings.update changes = .ok settings ∧ (settings.save now).1 = kept ∧
      follow { r with settings := kept } settings.current = ((updateSettings r q now).1, none) := by
  fun_cases updateSettings r q now with
  | case1 f hb =>
    simp only [updateSettings, hb] at h
    have hrefused := Reply.le_status_refusal "configuration" f
    omega
  | case2 changes hb f hu =>
    simp only [updateSettings, hb, hu] at h
    have hrefused := Reply.le_status_refusal "configuration" f
    omega
  | case3 changes hb settings hu kept f hs => simp [updateSettings, hb, hu, hs] at h
  | case4 changes hb settings hu kept saved hs after hfollow =>
    exact ⟨changes, settings, kept, hb, hu, by rw [hs], hfollow⟩
  | case5 changes hb settings hu kept saved hs after f hfollow =>
    simp [updateSettings, hb, hu, hs, hfollow] at h

end Control

/-! ## What keeps the sender and the log in step -/

namespace Router

variable {r s later : Router} {q : Control.Request} {now : Int}

/-- The settings are those of another router, and the sender and the log have what they have
there. -/
structure Unmoved (r s : Router) : Prop where
  settings : s.settings.current = r.settings.current
  target : s.sender.target = r.sender.target
  format : s.sender.format = r.sender.format
  capacity : s.log.capacity = r.log.capacity

theorem Unmoved.refl (r : Router) : Unmoved r r := ⟨rfl, rfl, rfl, rfl⟩

/-- What is sent and logged changes the counters and the entries only. -/
theorem stable_unmoved (r : Router) : Stable (Unmoved r) where
  recorded {s} h now service processed data :=
    ⟨h.settings, h.target, h.format,
      (s.log.record_capacity now (.incoming service processed) data []).trans h.capacity⟩
  delivered {s _ _ _ now _ payload extra} h _ hdeliver := by
    obtain ⟨sender, network, hs, rfl⟩ := deliver_eq_ok hdeliver
    exact ⟨h.settings, (Osc.Sender.send_target hs).trans h.target,
      (Osc.Sender.send_format hs).trans h.format,
      (s.log.record_capacity now _ payload extra).trans h.capacity⟩
  settled h _ := ⟨h.settings, h.target, h.format, h.capacity⟩

/-- A test by a sender of its own leaves the sender of the router as it is. -/
theorem Unmoved.ping (h : Unmoved r s) (now : Int) (host port : Value) :
    Unmoved r (s.ping now host port).1 := by
  rcases s.ping_cases now host port with he | he
  · exact he ▸ (stable_unmoved r).sendTests h now testEndpoints
  -- while it lasts the router has another sender, so the invariant is that of this other router
  · have hsent := (stable_unmoved { s with
      sender := s.sender.forTarget (s.aim host port) }).sendTests (.refl _) now testEndpoints
    exact he ▸ ⟨hsent.settings.trans h.settings, h.target, h.format,
      hsent.capacity.trans h.capacity⟩

theorem Unmoved.answer (h : Unmoved r s) (now : Int)
    (other : Control.Route.find q ≠ .ok .updateSettings) :
    Unmoved r (Control.answer s q now).1 :=
  (stable_unmoved r).answer (fun h => h.ping)
    (fun h _ => ⟨h.settings, h.target, h.format, h.capacity⟩)
    (fun h => ⟨h.settings, h.target, h.format, h.capacity⟩) h q now
    fun hupdate => absurd hupdate other

/-- The routers that a router comes to while its settings are not changed: requests of any other
kind are answered, comments are taken, the rules are read again, others write to the two files, and
the network changes in any way. -/
inductive Onward (r : Router) : Router → Prop
  | here : Onward r r
  | answer {s : Router} (q : Control.Request) (now : Int) (before : Onward r s)
    (other : Control.Route.find q ≠ .ok .updateSettings) : Onward r (Control.answer s q now).1
  | handle {s : Router} (now : Int) (comments : List Value) (before : Onward r s) :
    Onward r (s.handle now comments).1
  | reload {s : Router} (before : Onward r s) : Onward r { s with book := s.book.reload.1 }
  | rulesFile {s : Router} (file : RuleFile) (before : Onward r s) :
    Onward r { s with book := { s.book with file := s.book.file.map fun _ => file } }
  | settingsFile {s : Router} (file : File) (before : Onward r s) :
    Onward r { s with settings := { s.settings with file } }
  | network {s : Router} (network : Osc.Network) (before : Onward r s) : Onward r { s with network }

theorem Onward.unmoved (h : Onward r later) : Unmoved r later := by
  induction h with
  | here => exact .refl r
  | answer q now _ other ih => exact ih.answer now other
  | handle now comments _ ih => exact (stable_unmoved r).handle ih now comments
  | reload _ ih | rulesFile _ _ ih | settingsFile _ _ ih | network _ _ ih =>
    exact ⟨ih.settings, ih.target, ih.format, ih.capacity⟩

theorem Follows.unmoved (h : r.Follows) (hu : Unmoved r s) : s.Follows where
  port := by rw [hu.target, hu.settings, h.port]
  format := by rw [hu.format, hu.settings, h.format]
  capacity := by
    rw [hu.capacity, hu.settings]
    exact h.capacity

theorem InStep.unmoved (h : r.InStep) (hu : Unmoved r s) : s.InStep where
  toFollows := h.toFollows.unmoved hu
  host := by rw [hu.target, hu.settings, h.host]

/-- Settings in range that are followed give their port, their format and their capacity, and their
host too unless it is empty. -/
theorem follows_of_follow {settings : Settings} {after : Router} (hrange : settings.InRange)
    (hcurrent : ∃ updated, r.settings.current = { settings with lastUpdated := updated })
    (h : Control.follow r settings = (after, none)) :
    after.settings = r.settings ∧ after.Follows ∧
      after.sender.target.host =
        if settings.oscHost = "" then r.sender.target.host else .text settings.oscHost := by
  obtain ⟨log, hlog, rfl⟩ := Control.follow_eq_none h
  obtain ⟨updated, hcurrent⟩ := hcurrent
  have hport : (Value.int settings.oscPort).given = true := by
    have hleast := hrange.oscPort.1
    simp only [Value.given, bne_iff_ne, ne_eq]
    omega
  refine ⟨rfl, ⟨?_, ?_, ?_⟩, ?_⟩
  · simp only [Osc.Sender.retarget, hport, if_true, hcurrent]
  · simp only [Osc.Sender.retarget, Osc.Format.given_name, if_true, hcurrent]
  · simpa only [hcurrent] using Log.capacity_of_resizeTo hlog
  · by_cases hhost : settings.oscHost = "" <;>
      simp [Osc.Sender.retarget, Value.given, hhost]

/-- Where an empty host leaves a sender with its former one, the host makes the difference. -/
theorem Follows.inStep_iff (h : r.Follows) {former : Value}
    (hhost : r.sender.target.host =
      if r.settings.current.oscHost = "" then former else .text r.settings.current.oscHost) :
    r.InStep ↔ r.settings.current.oscHost ≠ "" ∨ former = .text "" := by
  constructor
  · intro hstep
    rw [or_iff_not_imp_left, not_not]
    intro hempty
    rw [← hempty, ← hstep.host, hhost, if_pos hempty]
  · intro hgood
    refine ⟨h, ?_⟩
    rw [hhost]
    split
    · rename_i hempty
      rw [hempty, hgood.resolve_left (not_not.mpr hempty)]
    · rfl

/-- A change of the settings that is answered by 200 puts in use what the check has made of it, and
the sender and the log have the same port, format and capacity. They are in step unless the host is
empty and the sender had another one, which it keeps. Nothing parts them until the settings are
changed again. -/
theorem settings_followed (r : Router) (q : Control.Request) (now : Int)
    (hq : Control.Route.find q = .ok .updateSettings)
    (hstatus : (Control.answer r q now).2.status = 200) :
    let after := (Control.answer r q now).1
    let host := after.settings.current.oscHost
    (∃ changes settings updated, q.jsonFields .settings = .ok changes ∧
      r.settings.current.update changes = .ok settings ∧
      after.settings.current = { settings with lastUpdated := updated }) ∧
    after.Follows ∧
    after.sender.target.host = (if host = "" then r.sender.target.host else .text host) ∧
    (after.InStep ↔ host ≠ "" ∨ r.sender.target.host = .text "") ∧
    ∀ later, after.Onward later → later.Follows ∧ (after.InStep → later.InStep) := by
  have hanswer : Control.answer r q now = Control.updateSettings r q now := by
    simp only [Control.answer, hq, Control.serve]
  rw [hanswer] at hstatus ⊢
  obtain ⟨changes, settings, kept, hb, hu, hs, hfollow⟩ := Control.updateSettings_success hstatus
  obtain ⟨updated, hupdated⟩ := settings.save_current now
  rw [hs] at hupdated
  obtain ⟨hkept, hfollows, hhost⟩ :=
    follows_of_follow (SettingsFile.inRange_of_update hu) ⟨updated, hupdated⟩ hfollow
  generalize (Control.updateSettings r q now).1 = after at *
  dsimp only at hkept hhost ⊢
  have hcurrent : after.settings.current = { settings.current with lastUpdated := updated } := by
    rw [hkept, hupdated]
  have hname : after.settings.current.oscHost = settings.current.oscHost := by rw [hcurrent]
  rw [← hname] at hhost
  refine ⟨⟨changes, settings.current, updated, hb, ?_, hcurrent⟩, hfollows, hhost,
    hfollows.inStep_iff hhost, ?_⟩
  · obtain ⟨current, hcurrent, hset⟩ := bind_eq_ok_iff.mp hu
    rw [hcurrent, ← Except.ok.inj hset]
  · intro later honward
    exact ⟨hfollows.unmoved honward.unmoved, fun hstep => hstep.unmoved honward.unmoved⟩

end Router

def otherTargetRequest : Control.Request := settingsRequest
  "\x7b\"oscHost\":\"10.0.0.5\",\"oscPort\":\"9000\",\"maxLogMessages\":5\x7d"

/-- A port given by its digits is passed on as the number that they are read as. -/
theorem settings_followed_digits :
    (Control.answer freshRouter otherTargetRequest 0).2.status = 200 ∧
      (Control.answer freshRouter otherTargetRequest 0).1.InStep := by
  have hfind : Control.Route.find otherTargetRequest = .ok .updateSettings := rfl
  have hstatus : (Control.answer freshRouter otherTargetRequest 0).2.status = 200 := by
    decide +kernel
  obtain ⟨-, -, -, hstep, -⟩ :=
    Router.settings_followed freshRouter otherTargetRequest 0 hfind hstatus
  exact ⟨hstatus, hstep.mpr (Or.inl (by decide +kernel))⟩

def blankHostRequest : Control.Request := settingsRequest "\x7b\"oscHost\":\"\"\x7d"

/-- An empty host is put in use, but the sender stays with the host that it had. -/
theorem not_settings_followed_blank :
    ¬ ∀ r : Router, r.Served → ∀ (q : Control.Request) (now : Int),
      Control.Route.find q = .ok .updateSettings → (Control.answer r q now).2.status = 200 →
        (Control.answer r q now).1.InStep := by
  intro h
  have hstep := h freshRouter served_freshRouter blankHostRequest 0 rfl (by decide +kernel)
  have hhost : (Control.answer freshRouter blankHostRequest 0).1.sender.target.host.text? ≠
      some (Control.answer freshRouter blankHostRequest 0).1.settings.current.oscHost := by
    decide +kernel
  exact hhost (by rw [hstep.host]; rfl)

end Switchboard
