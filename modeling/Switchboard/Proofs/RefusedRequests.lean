import Switchboard.Proofs.Batches
import Switchboard.Proofs.RuleIdentity
import Switchboard.Proofs.RuleTexts
import Switchboard.Proofs.ServedRouters

/-!
# Refused requests

A request that is refused, by a status of 400 or above, leaves the router as it was. This fails only
where the request has been carried out before it turns out that it cannot be answered: the rules or
the reply cannot be written, or the settings ask for a log that no memory can hold.
-/
namespace Switchboard

/-! ## The statuses of replies -/

namespace Control.Reply

variable {fields : Record Value}

/-- The value cannot be written as a field of a reply, which is a level of its own. -/
def IsUnwritable (v : Value) : Prop := Faults (Json.writeWithin (Value.levelLimit 1 - 1) v)

@[simp] theorem isUnwritable_int {n : Int} : IsUnwritable (.int n) ↔ IsOverlong n :=
  @Json.faults_writeWithin_int 983 n

@[simp] theorem not_isUnwritable_bool (b : Bool) : ¬ IsUnwritable (.bool b) :=
  @Json.not_faults_writeWithin_bool 983 b

@[simp] theorem not_isUnwritable_text (s : String) : ¬ IsUnwritable (.text s) :=
  @Json.not_faults_writeWithin_text 983 s

theorem isUnwritable_iff_of_ofJson {v : Value} (h : v.OfJson) :
    IsUnwritable v ↔ Value.levelLimit 1 ≤ v.levels :=
  h.faults_writeWithin 984

theorem faults_write_record : Faults (Json.write (.record fields)) ↔
    ∃ f ∈ fields, IsUnwritable f.2 := @Json.faults_writeWithin_record 984 fields

theorem le_status_success_iff : 400 ≤ (success fields).status ↔
    ∃ f ∈ Record.merge [("success", .bool true)] fields, IsUnwritable f.2 := by
  rw [← faults_write_record]
  unfold success ofRecord
  split
  · rename_i s hs
    simp [hs, status]
  · rename_i f hf
    simp [hf]

/-- A reply that succeeds is refused only for a value that cannot be written in it. -/
theorem isUnwritable_of_le_status_success (h : 400 ≤ (success fields).status) :
    ∃ f ∈ fields, IsUnwritable f.2 := by
  obtain ⟨f, hf, hfault⟩ := le_status_success_iff.mp h
  rcases Record.mem_merge hf with hs | hs
  · obtain rfl := List.mem_singleton.mp hs
    exact absurd hfault (not_isUnwritable_bool true)
  · exact ⟨f, hs, hfault⟩

theorem le_status_success_rule (v : Value) :
    400 ≤ (success [("rule", v)]).status ↔ IsUnwritable v := by
  have hmerge : Record.merge [("success", .bool true)] [("rule", v)] =
      [("success", .bool true), ("rule", v)] := rfl
  simp [le_status_success_iff, hmerge]

theorem not_le_status_success_nil : ¬ 400 ≤ (success []).status := by
  intro h
  obtain ⟨f, hf, -⟩ := isUnwritable_of_le_status_success h
  cases hf

@[simp] theorem status_failure (n : Nat) (message : String) : (failure n message).status = n := by
  have hwritten : ¬ Faults (Json.write (.record [("success", .bool false),
      ("error", .text message)])) := by
    rw [faults_write_record]
    simp
  obtain ⟨s, hs⟩ := not_faults_iff.mp hwritten
  simp [failure, ofRecord, hs, status]

theorem le_status_refusal (subject : String) (f : Fault) : 400 ≤ (refusal subject f).status := by
  unfold refusal
  split <;> simp

end Control.Reply

/-- A rule that was added from JSON is written as JSON. -/
theorem RuleBook.ofJson_of_add {b : RuleBook} {now : Int} {v : Value} {r : Rule} (hv : v.OfJson)
    (h : (b.add v now).2 = .ok r) : r.toValue.OfJson := by
  obtain ⟨s, hs, rfl, -⟩ := add_eq_ok h
  have hjson := Rule.ofJson_of_ofValue hv hs
  rcases insert_cases b s now with ⟨-, -, -, -, he⟩ | ⟨-, he⟩ <;> rw [he]
  · exact hjson
  · exact Rule.ofJson_withId hjson _

/-! ## What the body of a request gives -/

namespace Control

variable {q : Request}

theorem Request.isJson_of_json {default v : Value} (hd : default.IsJson)
    (h : q.json default = .ok v) : v.IsJson := by
  unfold Request.json at h
  split at h
  · exact Except.ok.inj h ▸ hd
  · exact Json.isJson_of_read h

theorem not_isOverlong_of_wholeNumber {v : Value} (hv : v.OfJson) {n : Int}
    (h : wholeNumber v = .ok n) : ¬ IsOverlong n := by
  fun_cases wholeNumber v with
  | case1 m =>
    obtain rfl := Except.ok.inj h
    cases hv with
    | int hm => exact hm
  | case2 b =>
    obtain rfl := Except.ok.inj h
    exact Settings.not_isOverlong_of_lt (by cases b <;> decide)
  | case3 x m hm =>
    simp only [wholeNumber, hm, Except.ok.injEq] at h
    exact h ▸ Double.not_isOverlong_of_truncate? hm
  | case6 s m hm =>
    simp only [wholeNumber, hm, Except.ok.injEq] at h
    exact h ▸ Number.not_isOverlong_of_readInt? hm
  | _ => simp_all [wholeNumber]

theorem isJson_blank : (Value.record []).IsJson := ⟨.record nofun, by decide⟩

/-- The host and the port that are asked for are JSON. -/
theorem isJson_of_targetOf {host port : Value} (h : targetOf q = .ok (host, port)) :
    host.IsJson ∧ port.IsJson := by
  have hnull : Value.null.IsJson := ⟨.null, by decide⟩
  unfold targetOf at h
  cases hb : q.json (.record []) with
  | error f => simp [hb, bind, Except.bind] at h
  | ok body =>
    have hbody := Request.isJson_of_json isJson_blank hb
    simp only [hb, bind, Except.bind] at h
    cases body with
    | record fields =>
      dsimp only at h
      split at h
      · cases hw : wholeNumber (Value.lookup fields "port") with
        | error f => simp [hw, Except.map] at h
        | ok n =>
          simp only [hw, Except.map, pure, Except.pure, Except.ok.injEq, Prod.mk.injEq] at h
          obtain ⟨rfl, rfl⟩ := h
          have hn := not_isOverlong_of_wholeNumber (hbody.lookup "port").kinds hw
          exact ⟨hbody.lookup "host", .int hn, show 1 ≤ 985 by decide⟩
      · simp only [pure, Except.pure, Except.ok.injEq, Prod.mk.injEq] at h
        obtain ⟨rfl, rfl⟩ := h
        exact ⟨hbody.lookup "host", hnull⟩
    | _ =>
      simp only [pure, Except.pure, Except.ok.injEq, Prod.mk.injEq] at h
      obtain ⟨rfl, rfl⟩ := h
      exact ⟨hnull, hnull⟩

end Control

/-! ## Tests of the connection and comments -/

namespace Router

variable {r : Router} {now : Int}

/-- No more comments are counted than there are. -/
theorem handle_count_le (r : Router) (now : Int) {comments : List Value}
    (json : ∀ c ∈ comments, c.IsJson) :
    ∃ n, (r.handle now comments).2 = .ok n ∧ n ≤ comments.length :=
  ⟨_, handle_eq_ok now json, (r.length_passages now comments) ▸ List.countP_le_length⟩

/-- A target from JSON or from settings in range has a text. -/
theorem not_faults_aim (r : Router) {host port : Value} (hhost : host.IsJson) (hport : port.IsJson)
    (hsettings : r.settings.current.InRange) : ¬ Faults (r.aim host port).text := by
  have hown : (Value.int r.settings.current.oscPort).IsJson :=
    ⟨.int hsettings.not_isOverlong_oscPort, show 1 ≤ 985 by decide⟩
  rw [Osc.Target.text, faults_bind_bind_pure, Value.faults_plain, Value.faults_plain, not_or, aim]
  constructor
  · dsimp only
    split
    · exact hhost.not_lacksLiteral
    · exact Value.IsPlainLeaf.not_lacksLiteral trivial
  · dsimp only
    split
    · exact hport.not_lacksLiteral
    · exact hown.not_lacksLiteral

/-- A payload that is made up for is sent in every test. -/
theorem sendTests_eq_ok (h : Osc.raised? r.sender.format (testPayload now) = none)
    (endpoints : List String) : ∃ results, (r.sendTests now endpoints).2 = .ok results := by
  induction endpoints generalizing r with
  | nil => exact ⟨[], rfl⟩
  | cons e endpoints ih =>
    unfold sendTests
    cases hd : r.deliver now e (testPayload now) [("test", .bool true)] with
    | error f =>
      have hraised := Osc.Sender.send_eq_error_iff.mp (deliver_eq_error hd)
      cases h.symm.trans hraised
    | ok result =>
      obtain ⟨after, done, id⟩ := result
      obtain ⟨sender, network, hs, hafter⟩ := deliver_eq_ok hd
      have hsender : after.sender = sender := by rw [hafter]
      rw [← Osc.Sender.send_format hs, ← hsender] at h
      obtain ⟨results, hresults⟩ := ih h
      exact ⟨(e, done) :: results, by simp only [hresults]; rfl⟩

/-- Tests that break off do so in the first of them, before anything has changed. -/
theorem sendTests_cases (r : Router) (now : Int) (endpoints : List String) :
    (r.sendTests now endpoints).1 = r ∨ ∃ results, (r.sendTests now endpoints).2 = .ok results := by
  cases hraised : Osc.raised? r.sender.format (testPayload now) with
  | none => exact Or.inr (sendTests_eq_ok hraised endpoints)
  | some f =>
    cases endpoints with
    | nil => exact Or.inl rfl
    | cons e endpoints =>
      have hsend := (@Osc.Sender.send_eq_error_iff r.sender r.network e _ _).mpr hraised
      refine Or.inl ?_
      unfold sendTests deliver
      rw [hsend]
      rfl

/-- What a test says of a target with a text can be written. -/
theorem tests_written (text : String) (now : Int) (results : List (String × Bool)) :
    ∀ f ∈ ([("target", .text text), ("endpoints", .list (testEndpoints.map .text)),
      ("timestamp", .text (Calendar.instantText now)),
      ("results", .record (results.map fun p => (p.1, .bool p.2)))] : Record Value),
      ¬ Control.Reply.IsUnwritable f.2 := by
  have hendpoints : ¬ Control.Reply.IsUnwritable (.list (testEndpoints.map .text)) := by
    refine (@Json.faults_writeWithin_list 983 _).not.mpr ?_
    simp
  have hresults : ¬ Control.Reply.IsUnwritable
      (.record (results.map fun p => (p.1, .bool p.2))) := by
    refine (@Json.faults_writeWithin_record 983 _).not.mpr ?_
    rintro ⟨f, hf, hfault⟩
    obtain ⟨p, -, rfl⟩ := List.mem_map.mp hf
    exact Json.not_faults_writeWithin_bool p.2 hfault
  simp [hendpoints, hresults]

/-- A test that is aimed at a target with a text changes nothing, or it gives a result that can be
written. -/
theorem ping_written {host port : Value} (h : ¬ Faults (r.aim host port).text) (now : Int) :
    (r.ping now host port).1 = r ∨ ∃ result, (r.ping now host port).2 = .ok result ∧
      ∀ f ∈ result, ¬ Control.Reply.IsUnwritable f.2 := by
  obtain ⟨text, htext⟩ := not_faults_iff.mp h
  unfold aim at htext
  unfold ping
  dsimp only
  generalize (if host.given = true then host else Value.text r.settings.current.oscHost) = aimedHost
    at htext ⊢
  generalize (if port.given = true then port else Value.int r.settings.current.oscPort) = aimedPort
    at htext ⊢
  rw [htext]
  cases aimedHost.sameKey r.sender.target.host && aimedPort.sameKey r.sender.target.port with
  | true =>
    simp only [if_true]
    rcases sendTests_cases r now testEndpoints with he | ⟨results, hresults⟩
    · exact Or.inl he
    · exact Or.inr ⟨_, by rw [hresults]; rfl, tests_written text now results⟩
  | false =>
    simp only [Bool.false_eq_true, if_false]
    rcases sendTests_cases { r with sender := r.sender.forTarget ⟨aimedHost, aimedPort⟩ } now
      testEndpoints with he | ⟨results, hresults⟩
    · exact Or.inl (by rw [he])
    · exact Or.inr ⟨_, by rw [hresults]; rfl, tests_written text now results⟩

end Router

/-! ## What is refused -/

namespace Control

variable {r : Router} {q : Request} {now : Int}

/-- The request is carried out, or nearly so, and only then refused. A change of the rules breaks
off in writing. It ends in a rule that cannot be written in the reply, and one that is added is
nested too deep for that. Settings are accepted that ask for a log of more entries than a machine
word can count. More comments are handled than a number can say. -/
def FailsLate (r : Router) (q : Request) (now : Int) : Route → Prop
  | .addRule => ∃ body, q.json .null = .ok body ∧
      (r.book.BreaksOff now (.add body) ∨
        ∃ rule, (r.book.add body now).2 = .ok rule ∧ Value.levelLimit 1 ≤ rule.toValue.levels)
  | .updateRule id => ∃ changes, q.jsonFields .ruleChanges = .ok changes ∧
      (r.book.BreaksOff now (.update id (.record changes)) ∨
        ∃ rule, (r.book.update id (.record changes) now).2 = .ok (some rule) ∧
          Reply.IsUnwritable rule.toValue)
  | .deleteRule id => r.book.BreaksOff now (.delete id)
  | .updateSettings => ∃ changes settings, q.jsonFields .settings = .ok changes ∧
      r.settings.update changes = .ok settings ∧ 2 ^ 63 ≤ settings.current.maxLogMessages
  | .ingest => ∃ comments : List Value, commentsOf q = .ok comments ∧ IsOverlong comments.length
  | _ => False

/-- What is refused has changed nothing unless it is late, and what is late is refused. -/
structure Refuses (r : Router) (late : Prop) (done : Router × Reply) : Prop where
  unchanged : 400 ≤ done.2.status → done.1 = r ∨ late
  refused : late → 400 ≤ done.2.status

/-- What does not change the router may be refused at any time. -/
theorem Refuses.of_unchanged {late : Prop} {reply : Reply} (h : ¬ late) :
    Refuses r late (r, reply) where
  unchanged _ := Or.inl rfl
  refused hl := absurd hl h

theorem Refuses.congr {late late' : Prop} {done : Router × Reply} (h : Refuses r late done)
    (he : late ↔ late') : Refuses r late' done where
  unchanged hs := (h.unchanged hs).imp_right he.mp
  refused hl := h.refused (he.mpr hl)

/-- A change of the rules that fails is refused, and one that succeeds is where its reply is. -/
theorem refuses_changed {c : RuleBook.Change} {reply : Reply} {unwritten : Prop}
    (hfails : ¬ r.book.Succeeds now c → 400 ≤ reply.status ∧ ¬ unwritten)
    (hsucceeds : r.book.Succeeds now c → (400 ≤ reply.status ↔ unwritten)) :
    Refuses r (r.book.BreaksOff now c ∨ unwritten)
      ({ r with book := r.book.changed now c }, reply) := by
  by_cases hs : r.book.Succeeds now c
  · exact ⟨fun h => Or.inr (Or.inr ((hsucceeds hs).mp h)),
      fun h => (hsucceeds hs).mpr (h.resolve_left fun hb => hb.not_succeeds hs)⟩
  · refine ⟨fun _ => ?_, fun _ => (hfails hs).1⟩
    by_cases hb : r.book.BreaksOff now c
    · exact Or.inr (Or.inl hb)
    · rw [RuleBook.changed_eq_self hs hb]
      exact Or.inl rfl

theorem refuses_addRule (r : Router) (q : Request) (now : Int) :
    Refuses r (FailsLate r q now .addRule) (addRule r q now) := by
  unfold addRule
  cases hb : q.json .null with
  | error f => exact .of_unchanged (by simp [FailsLate, hb])
  | ok rule =>
    refine (@refuses_changed r now (.add rule) _ (∃ s, (r.book.add rule now).2 = .ok s ∧
      Value.levelLimit 1 ≤ s.toValue.levels) ?_ ?_).congr (by simp only [FailsLate, hb,
        Except.ok.injEq, exists_eq_left'])
    · intro hs
      cases hr : (r.book.add rule now).2 with
      | error f => exact ⟨Reply.le_status_refusal _ f, nofun⟩
      | ok s => exact absurd ⟨s, hr⟩ hs
    · rintro ⟨s, hs⟩
      have hjson := RuleBook.ofJson_of_add
        (Request.isJson_of_json ⟨.null, by decide⟩ hb).kinds hs
      simp only [hs, Except.ok.injEq, exists_eq_left', ← Reply.isUnwritable_iff_of_ofJson hjson]
      exact Reply.le_status_success_rule s.toValue

theorem refuses_updateRule (r : Router) (q : Request) (now : Int) (id : String) :
    Refuses r (FailsLate r q now (.updateRule id)) (updateRule r q id now) := by
  unfold updateRule
  cases hb : q.jsonFields .ruleChanges with
  | error f => exact .of_unchanged (by simp [FailsLate, hb])
  | ok changes =>
    refine (@refuses_changed r now (.update id (.record changes)) _
      (∃ rule, (r.book.update id (.record changes) now).2 = .ok (some rule) ∧
        Reply.IsUnwritable rule.toValue) ?_ ?_).congr (by simp [FailsLate, hb])
    · intro hs
      cases hr : (r.book.update id (.record changes) now).2 with
      | error f => exact ⟨Reply.le_status_refusal _ f, by simp⟩
      | ok found =>
        cases found with
        | none => exact ⟨by simp [notFound], by simp⟩
        | some rule => exact absurd ⟨rule, hr⟩ hs
    · rintro ⟨rule, hs⟩
      simp only [hs, Except.ok.injEq, Option.some.injEq, exists_eq_left']
      exact Reply.le_status_success_rule rule.toValue

theorem refuses_deleteRule (r : Router) (q : Request) (now : Int) (id : String) :
    Refuses r (FailsLate r q now (.deleteRule id)) (deleteRule r id now) := by
  refine (@refuses_changed r now (.delete id) _ False ?_ ?_).congr (by simp [FailsLate])
  · intro hs
    cases hr : (r.book.delete id now).2 with
    | error f => exact ⟨by simp, not_false⟩
    | ok found =>
      cases found with
      | false => exact ⟨by simp [notFound], not_false⟩
      | true => exact absurd hr hs
  · intro hs
    change (r.book.delete id now).2 = .ok true at hs
    rw [iff_false, hs]
    exact Reply.not_le_status_success_nil

/-- Settings in range are followed unless they ask for a capacity that no log can have. -/
theorem follow_snd_eq_none (hlog : r.log.Sized) {s : Settings} (hs : s.InRange) :
    (follow r s).2 = none ↔ s.maxLogMessages < 2 ^ 63 := by
  have hnonneg : 0 ≤ s.maxLogMessages := by
    have := hs.maxLogMessages
    omega
  rw [← Int.not_le, ← hlog.faults_resizeTo hnonneg]
  unfold follow
  dsimp only
  cases r.log.resizeTo (.int s.maxLogMessages) <;> simp

theorem follow_settings (r : Router) (s : Settings) : (follow r s).1.settings = r.settings := by
  unfold follow
  dsimp only
  split <;> rfl

/-- Settings that are accepted fail late if their capacity is past the machine words. -/
theorem failsLate_updateSettings {changes : Record Value} {settings : SettingsFile}
    (hb : q.jsonFields .settings = .ok changes) (hu : r.settings.update changes = .ok settings) :
    FailsLate r q now .updateSettings ↔ 2 ^ 63 ≤ settings.current.maxLogMessages := by
  simp [FailsLate, hb, hu]

theorem refuses_updateSettings (h : r.Sound) (q : Request) (now : Int) :
    Refuses r (FailsLate r q now .updateSettings) (updateSettings r q now) := by
  fun_cases updateSettings r q now with
  | case1 f hb => exact .of_unchanged (by simp [FailsLate, hb])
  | case2 changes hb f hu => exact .of_unchanged (by simp [FailsLate, hb, hu])
  | case3 changes hb settings hu kept f hs =>
    have hrange := SettingsFile.inRange_of_update hu
    refine Refuses.congr ⟨fun _ => Or.inr ?_, fun _ => by simp⟩
      (failsLate_updateSettings hb hu).symm
    by_contra hsmall
    exact SettingsFile.not_faults_save hrange (Int.not_le.mp hsmall) now ⟨f, by rw [hs]⟩
  | case4 changes hb settings hu kept saved hs after hfollow =>
    have hrange := SettingsFile.inRange_of_update hu
    have hsmall : settings.current.maxLogMessages < 2 ^ 63 :=
      (@follow_snd_eq_none { r with settings := kept } h.log _ hrange).mp (by rw [hfollow])
    have hsettings := follow_settings { r with settings := kept } settings.current
    have hwritten := SettingsFile.not_faults_writeWithin_save hrange hsmall now 982
    rw [hfollow] at hsettings
    rw [hs] at hwritten
    refine Refuses.congr ⟨fun hstatus => ?_, fun hlarge => absurd hsmall (Int.not_lt.mpr hlarge)⟩
      (failsLate_updateSettings hb hu).symm
    obtain ⟨f, hf, hfault⟩ := Reply.isUnwritable_of_le_status_success hstatus
    simp only [List.mem_cons, List.not_mem_nil, or_false] at hf
    rcases hf with rfl | rfl
    · rw [settingsValue, hsettings] at hfault
      exact absurd hfault hwritten
    · exact absurd hfault (Reply.not_isUnwritable_bool saved)
  | case5 changes hb settings hu kept saved hs after f hfollow =>
    have hrange := SettingsFile.inRange_of_update hu
    refine Refuses.congr ⟨fun _ => Or.inr ?_, fun _ => by simp⟩
      (failsLate_updateSettings hb hu).symm
    by_contra hsmall
    have hnone := (@follow_snd_eq_none { r with settings := kept } h.log _ hrange).mpr
      (Int.not_le.mp hsmall)
    rw [hfollow] at hnone
    cases hnone

/-- A test whose reply cannot be written has changed nothing. -/
theorem refuses_ping (h : r.Sound) (q : Request) (now : Int) :
    Refuses r False (ping r q now) := by
  have hwritten : ∀ {host port after answer}, targetOf q = .ok (host, port) →
      r.ping now host port = (after, answer) →
        after = r ∨ ∃ result, answer = .ok result ∧ ∀ f ∈ result, ¬ Reply.IsUnwritable f.2 := by
    intro host port after answer ht hp
    obtain ⟨hhost, hport⟩ := isJson_of_targetOf ht
    have hw := Router.ping_written (r.not_faults_aim hhost hport h.settings) now
    rwa [hp] at hw
  fun_cases ping r q now with
  | case1 f => exact .of_unchanged id
  | case2 host port ht after result hp =>
    refine ⟨fun hstatus => Or.inl ?_, False.elim⟩
    rcases hwritten ht hp with hsame | ⟨_, ⟨⟩, hresult⟩
    · exact hsame
    · obtain ⟨f, hf, hfault⟩ := Reply.isUnwritable_of_le_status_success hstatus
      exact absurd hfault (hresult f hf)
  | case3 host port ht after f hp =>
    refine ⟨fun _ => Or.inl ?_, False.elim⟩
    rcases hwritten ht hp with hsame | ⟨_, ⟨⟩, -⟩
    exact hsame

theorem isJson_of_commentsOf {comments : List Value} (h : commentsOf q = .ok comments) :
    ∀ c ∈ comments, c.IsJson := by
  obtain ⟨body, hb, h⟩ := bind_eq_ok_iff.mp h
  have hbody := Request.isJson_of_json isJson_blank hb
  split at h
  · rename_i fields
    have hlookup := Value.IsJson.lookup hbody "comments"
    split at h
    · rename_i items hl
      obtain rfl := Except.ok.inj h
      rw [hl] at hlookup
      exact fun c hc => (@Value.IsJsonWithin.of_list 984 items hlookup c hc).mono (by decide)
    · cases h
  · cases h

theorem refuses_ingest (r : Router) (q : Request) (now : Int) :
    Refuses r (FailsLate r q now .ingest) (ingest r q now) := by
  unfold ingest
  cases hb : commentsOf q with
  | error f => exact .of_unchanged (by simp [FailsLate, hb])
  | ok comments =>
    obtain ⟨n, hn, hcount⟩ := r.handle_count_le now (isJson_of_commentsOf hb)
    rcases hr : r.handle now comments with ⟨after, result⟩
    obtain rfl : result = .ok n := by rw [← hn, hr]
    have hmerge : Record.merge [("success", Value.bool true)]
        [("processed", Value.int n), ("received", Value.int comments.length)] =
        [("success", Value.bool true), ("processed", Value.int n),
          ("received", Value.int comments.length)] := rfl
    have hstatus : 400 ≤ (Reply.success [("processed", .int n),
        ("received", .int comments.length)]).status ↔ IsOverlong comments.length := by
      rw [Reply.le_status_success_iff, hmerge]
      simp only [List.mem_cons, List.not_mem_nil, or_false, exists_eq_or_imp, exists_eq_left,
        Reply.not_isUnwritable_bool, Reply.isUnwritable_int, false_or, IsOverlong,
        Int.natAbs_natCast]
      omega
    simp only [hr]
    refine ⟨fun hs => Or.inr ⟨comments, hb, hstatus.mp hs⟩, ?_⟩
    rintro ⟨comments', hb', hlong⟩
    rw [hb, Except.ok.injEq] at hb'
    exact hstatus.mpr (hb' ▸ hlong)

/-- Whatever route is taken, what is refused has changed nothing unless it is late. -/
theorem refuses_serve (h : r.Sound) (q : Request) (now : Int) (route : Route) :
    Refuses r (FailsLate r q now route) (serve r q now route) := by
  cases route with
  | addRule => exact refuses_addRule r q now
  | updateRule id => exact refuses_updateRule r q now id
  | deleteRule id => exact refuses_deleteRule r q now id
  | updateSettings => exact refuses_updateSettings h q now
  | ping => exact refuses_ping h q now
  | ingest => exact refuses_ingest r q now
  | clearLogs => exact ⟨fun hs => absurd hs Reply.not_le_status_success_nil, False.elim⟩
  | _ => exact .of_unchanged id

end Control

/-- In every state that a server comes to, a request that is refused has changed nothing: not the
rules, the settings, the sender, the log, nor a file. The exceptions are the requests that fail
late, each of which is refused. -/
theorem Router.Served.refused_unchanged {r : Router} (h : r.Served) (q : Control.Request)
    (now : Int) :
    (400 ≤ (Control.answer r q now).2.status → (Control.answer r q now).1 = r ∨
        ∃ route, Control.Route.find q = .ok route ∧ Control.FailsLate r q now route) ∧
      ∀ route, Control.Route.find q = .ok route → Control.FailsLate r q now route →
        400 ≤ (Control.answer r q now).2.status := by
  unfold Control.answer
  cases hq : Control.Route.find q with
  | error status =>
    refine ⟨fun _ => Or.inl rfl, nofun⟩
  | ok route =>
    have hroute := Control.refuses_serve h.sound q now route
    constructor
    · intro hstatus
      exact (hroute.unchanged hstatus).imp_right fun hl => ⟨route, rfl, hl⟩
    · rintro _ ⟨⟩ hl
      exact hroute.refused hl

/-- A router that has just been started, without rules. -/
def freshRouter : Router where
  sender := { target := ⟨.text "127.0.0.1", .int 19100⟩, format := .text "binary" }
  log := .empty (some 100)

theorem served_freshRouter : freshRouter.Served :=
  @Router.Served.start {} freshRouter.sender {} (.empty none) {} _ (.new {}) nofun rfl

/-- A request to change the settings. -/
def settingsRequest (body : String) : Control.Request where
  method := "PUT"
  target := "/api/config"
  body := body

def lowPortRequest : Control.Request := settingsRequest "\x7b\"oscPort\":80\x7d"

def oversizedRequest : Control.Request :=
  settingsRequest "\x7b\"oscPort\":9000,\"maxLogMessages\":9223372036854775808\x7d"

/-- A port below the least one is refused, and everything stays as it was. -/
theorem refused_unchanged_port :
    (Control.answer freshRouter lowPortRequest 0).2.status = 400 ∧
      (Control.answer freshRouter lowPortRequest 0).1 = freshRouter := by
  have hstatus : (Control.answer freshRouter lowPortRequest 0).2.status = 400 := by decide +kernel
  refine ⟨hstatus,
    ((served_freshRouter.refused_unchanged lowPortRequest 0).1 hstatus.ge).resolve_right ?_⟩
  rintro ⟨route, hroute, hlate⟩
  have hfind : Control.Route.find lowPortRequest = .ok .updateSettings := rfl
  obtain rfl := Except.ok.inj (hfind.symm.trans hroute)
  obtain ⟨changes, settings, hb, hu, -⟩ := hlate
  have hrefused : ((lowPortRequest.jsonFields .settings).bind fun changes =>
      freshRouter.settings.update changes).toOption.isNone = true := by decide +kernel
  rw [hb] at hrefused
  simp [Except.bind, hu, Except.toOption] at hrefused

/-- A capacity past the machine words is refused after the settings have been changed. -/
theorem not_refused_unchanged : ¬ ∀ r : Router, r.Served → ∀ (q : Control.Request) (now : Int),
    400 ≤ (Control.answer r q now).2.status →
      (Control.answer r q now).1.settings.current = r.settings.current := by
  intro h
  have hchanged : (Control.answer freshRouter oversizedRequest 0).1.settings.current.oscPort ≠
      freshRouter.settings.current.oscPort := by decide +kernel
  exact hchanged (congrArg Settings.oscPort
    (h freshRouter served_freshRouter oversizedRequest 0 (by decide +kernel)))

end Switchboard
