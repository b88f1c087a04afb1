import Switchboard.Control.Server
import Switchboard.Proofs.RouterInvariants
import Switchboard.Proofs.Routing
import Switchboard.Proofs.RuleChanges
import Switchboard.Proofs.SenderAccounting

/-!
# The counters of the log and of the sender

Whatever a router sends goes through its sender, which counts it, and then into the log, which
counts it again. So the two agree as long as the log is not cleared and nothing is sent by another
sender: through comments that fail halfway, changed rules and settings, and a network that fails in
any way.
-/
namespace Switchboard

namespace Log

/-- An outgoing entry is counted in the total, by its endpoint, and as an error unless it went out.
-/
theorem record_outgoing (log : Log) (now : Int) (endpoint : String) (success : Bool) (data : Value)
    (extra : Record Value)
    (free : ∀ p ∈ extra, p.1 ∉ (Traffic.outgoing (.text endpoint) success).ownNames) :
    (log.record now (.outgoing (.text endpoint) success) data extra).1.outgoing =
        log.outgoing + 1 ∧
      (log.record now (.outgoing (.text endpoint) success) data extra).1.errors =
        log.errors + (!success).toNat ∧
      (log.record now (.outgoing (.text endpoint) success) data extra).1.endpoints =
        log.endpoints.add (.text endpoint) := by
  have hfree : (extra.any fun p =>
      (Traffic.outgoing (.text endpoint) success).ownNames.contains p.1) = false := by
    simpa [List.any_eq_false] using free
  unfold record
  rw [hfree]
  cases success <;> simp [countName, countTotal, countTime, append]

/-- An incoming entry is not counted among the outgoing ones. -/
theorem record_incoming (log : Log) (now : Int) (service : Value) (processed : Bool) (data : Value)
    (extra : Record Value) :
    (log.record now (.incoming service processed) data extra).1.outgoing = log.outgoing ∧
      (log.record now (.incoming service processed) data extra).1.errors = log.errors ∧
      (log.record now (.incoming service processed) data extra).1.endpoints = log.endpoints := by
  unfold record
  split
  · exact ⟨rfl, rfl, rfl⟩
  · cases hg : service.given <;> cases hk : service.isKey <;>
      simp [countName, countTotal, countTime, append, hg, hk]

end Log

namespace Router

/-- The counters of the log agree with those of the sender. -/
structure Agrees (r : Router) : Prop where
  outgoing : r.log.outgoing = r.sender.sent + r.sender.errors
  errors : r.log.errors = r.sender.errors
  endpoints : r.log.endpoints.total = r.log.outgoing

variable {r : Router} {now : Int}

/-- What is sent is counted once by the sender and once by the log. -/
theorem Agrees.deliver {after : Router} {endpoint : String} {payload : Value}
    {extra : Record Value} {done : Bool} {id : Option Nat} (h : r.Agrees)
    (free : ∀ p ∈ extra, p.1 ∉ (Traffic.outgoing (.text endpoint) true).ownNames)
    (hdeliver : r.deliver now endpoint payload extra = .ok (after, done, id)) : after.Agrees := by
  obtain ⟨sender, network, hs, rfl⟩ := deliver_eq_ok hdeliver
  obtain ⟨hsent, herrors⟩ := Osc.Sender.send_counts hs
  obtain ⟨houtgoing, hfailed, hendpoints⟩ :=
    r.log.record_outgoing now endpoint done payload extra free
  constructor
  · rw [houtgoing, h.outgoing, hsent, herrors]
    cases done <;> simp <;> omega
  · rw [hfailed, h.errors, herrors]
  · rw [hendpoints, houtgoing, Tally.total_add, h.endpoints]

/-- What comes in is counted apart, and the data of the entries is not counted. -/
theorem stable_agrees : Stable Agrees where
  delivered h free hdeliver := h.deliver free hdeliver
  recorded {r} h now service processed data := by
    obtain ⟨houtgoing, herrors, hendpoints⟩ := r.log.record_incoming now service processed data []
    constructor
    · exact houtgoing.trans h.outgoing
    · exact herrors.trans h.errors
    · exact (congrArg Tally.total hendpoints).trans (h.endpoints.trans houtgoing.symm)
  settled h _ := ⟨h.outgoing, h.errors, h.endpoints⟩

/-- The test is aimed at the target of the sender. -/
def AimsAtOwn (r : Router) (host port : Value) : Prop :=
  (r.aim host port).host.sameKey r.sender.target.host = true ∧
    (r.aim host port).port.sameKey r.sender.target.port = true

theorem Agrees.ping (h : r.Agrees) (now : Int) {host port : Value} (own : r.AimsAtOwn host port) :
    (r.ping now host port).1.Agrees := by
  have hown : ((if host.given then host else .text r.settings.current.oscHost).sameKey
      r.sender.target.host && (if port.given then port else
        .int r.settings.current.oscPort).sameKey r.sender.target.port) = true := by
    rw [Bool.and_eq_true]
    exact own
  unfold Router.ping
  simp only [hown, if_true]
  exact stable_agrees.sendTests h now testEndpoints

/-- A new target keeps the counters of the sender. -/
theorem Agrees.retarget (h : r.Agrees) (host port format : Value) :
    Agrees { r with sender := r.sender.retarget host port format } :=
  ⟨h.outgoing, h.errors, h.endpoints⟩

/-- A new capacity keeps the counters of the log. -/
theorem Agrees.resizeTo (h : r.Agrees) {v : Value} {log : Log} (hl : r.log.resizeTo v = .ok log) :
    Agrees { r with log } := by
  rcases Log.resizeTo_eq_ok hl with ⟨rfl, -⟩ | ⟨capacity, -, rfl⟩
  · exact h
  · exact ⟨h.outgoing, h.errors, h.endpoints⟩

theorem Agrees.follow (h : r.Agrees) (s : Settings) : (Control.follow r s).1.Agrees := by
  have hretarget := h.retarget (.text s.oscHost) (.int s.oscPort) (.text s.oscMessageFormat.name)
  unfold Control.follow
  dsimp only
  split
  · rename_i log hl
    exact hretarget.resizeTo hl
  · exact hretarget

theorem Agrees.updateSettings (h : r.Agrees) (q : Control.Request) (now : Int) :
    (Control.updateSettings r q now).1.Agrees := by
  have hsettings : ∀ settings, Agrees { r with settings } :=
    fun _ => ⟨h.outgoing, h.errors, h.endpoints⟩
  fun_cases Control.updateSettings r q now with
  | case1 | case2 => exact h
  | case3 _ _ _ _ kept => exact hsettings kept
  | case4 _ _ settings _ kept _ _ after hfollow =>
    have hafter := (hsettings kept).follow settings.current
    rwa [hfollow] at hafter
  | case5 _ _ settings _ kept _ _ after f hfollow =>
    have hafter := (hsettings kept).follow settings.current
    rwa [hfollow] at hafter

/-- The routers that a router with a new sender and an empty log comes to. The rules and the
settings may change in between, and the network in any way. What is sent as a test is aimed at the
target of the sender, and the log is not cleared. -/
inductive Live : Router → Prop
  | start {book : RuleBook} {target : Osc.Target} {format : Value} {settings : SettingsFile}
    {capacity : Option Nat} {network : Osc.Network} {r : Router}
    (started : Router.start book { target, format } settings (.empty capacity) network = .ok r) :
    Live r
  | route {r : Router} (now : Int) (comment : Value) (before : Live r) : Live (r.route now comment).1
  | handle {r : Router} (now : Int) (comments : List Value) (before : Live r) :
    Live (r.handle now comments).1
  | change {r : Router} (now : Int) (c : RuleBook.Change) (before : Live r) :
    Live { r with book := r.book.changed now c }
  | reload {r : Router} (before : Live r) : Live { r with book := r.book.reload.1 }
  | settings {r after : Router} {changes : Record Value} (before : Live r)
    (accepted : r.updateSettings changes = .ok after) : Live after
  | request {r : Router} (q : Control.Request) (now : Int) (before : Live r) :
    Live (Control.updateSettings r q now).1
  | ping {r : Router} (now : Int) {host port : Value} (before : Live r)
    (own : r.AimsAtOwn host port) : Live (r.ping now host port).1
  | network {r : Router} (network : Osc.Network) (before : Live r) : Live { r with network }

theorem agrees_of_start {book : RuleBook} {target : Osc.Target} {format : Value}
    {settings : SettingsFile} {capacity : Option Nat} {network : Osc.Network}
    (h : Router.start book { target, format } settings (.empty capacity) network = .ok r) :
    r.Agrees := by
  unfold Router.start at h
  cases hc : Log.capacityOf (.int settings.current.maxLogMessages) with
  | error f => simp [Log.empty, hc, bind, Except.bind] at h
  | ok capacity =>
    simp only [Log.empty, hc, bind, Except.bind, pure, Except.pure, List.isEmpty_nil, if_true,
      Except.ok.injEq] at h
    subst h
    exact ⟨rfl, rfl, rfl⟩

/-- After every step of a run the log has counted as many outgoing entries as the sender has made
sends, as many errors as the sender, and each outgoing entry once by its endpoint. -/
theorem Live.counters_agree (h : Live r) :
    r.log.outgoing = r.sender.sent + r.sender.errors ∧ r.log.errors = r.sender.errors ∧
      r.log.endpoints.total = r.log.outgoing := by
  have hagrees : r.Agrees := by
    induction h with
    | start started => exact agrees_of_start started
    | route now comment _ ih => exact stable_agrees.route ih now comment
    | handle now comments _ ih => exact stable_agrees.handle ih now comments
    | change now c _ ih => exact ⟨ih.outgoing, ih.errors, ih.endpoints⟩
    | reload _ ih => exact ⟨ih.outgoing, ih.errors, ih.endpoints⟩
    | @settings r after changes _ accepted ih =>
      unfold Router.updateSettings at accepted
      cases hs : r.settings.update changes with
      | error f => simp [hs, bind, Except.bind] at accepted
      | ok settings =>
        simp only [hs, bind, Except.bind, pure, Except.pure, Except.ok.injEq] at accepted
        subst accepted
        exact ⟨ih.outgoing, ih.errors, ih.endpoints⟩
    | request q now _ ih => exact ih.updateSettings q now
    | ping now _ own ih => exact ih.ping now own
    | network network _ ih => exact ⟨ih.outgoing, ih.errors, ih.endpoints⟩
  exact ⟨hagrees.outgoing, hagrees.errors, hagrees.endpoints⟩

/-- Of the three sends for a comment the first one fails, in both of its attempts. -/
theorem counters_agree_chat :
    (chatRouter.route 0 chatComment).1.log.outgoing = 3 ∧
      (chatRouter.route 0 chatComment).1.log.errors =
        (chatRouter.route 0 chatComment).1.sender.errors ∧
      (chatRouter.route 0 chatComment).1.log.endpoints.total =
        (chatRouter.route 0 chatComment).1.log.outgoing := by
  have hstart : Live chatRouter := @Live.start chatRouter.book _ _ {} none chatRouter.network _ rfl
  obtain ⟨-, herrors, hendpoints⟩ := (hstart.route 0 chatComment).counters_agree
  exact ⟨by decide +kernel, herrors, hendpoints⟩

end Router

end Switchboard
