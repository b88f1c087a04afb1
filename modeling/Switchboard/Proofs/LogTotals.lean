import Mathlib.Data.List.Induction
import Switchboard.Proofs.LogContents

/-!
# What a log has counted

The totals of a log go on when it drops entries for want of room. So they count what has been
recorded since the log was cleared, and not what it holds: by direction, by what did not go out,
and by the names of endpoints and services, each name where it came up first.
-/
namespace Switchboard

namespace Traffic

/-- The endpoint that an outgoing message is counted by. -/
def endpointName? : Traffic → Option String
  | .outgoing (.text endpoint) _ => some endpoint
  | _ => none

/-- The service that an incoming message is counted by, if it has one that is not empty. -/
def serviceName? : Traffic → Option String
  | .incoming (.text service) _ => if service = "" then none else some service
  | _ => none

/-- An outgoing message that did not go out. -/
def isFailure : Traffic → Bool
  | .outgoing _ success => !success
  | .incoming _ _ => false

end Traffic

/-! ## Tallies of names -/

namespace Tally

/-- How often each name comes up, in the order in which the names come up first. -/
def ofNames (names : List String) : Tally := names.eraseDups.map fun s => (.text s, names.count s)

theorem eraseDups_concat (names : List String) (s : String) :
    (names ++ [s]).eraseDups = if s ∈ names then names.eraseDups else names.eraseDups ++ [s] := by
  rw [List.eraseDups_append]
  by_cases h : s ∈ names <;> simp [List.removeAll, h, List.eraseDups_cons]

theorem nodup_eraseDups (names : List String) : names.eraseDups.Nodup := by
  induction names using List.reverseRecOn with
  | nil => exact List.nodup_nil
  | append_singleton names s ih =>
    rw [eraseDups_concat]
    by_cases h : s ∈ names
    · rwa [if_pos h]
    · rw [if_neg h, List.nodup_append]
      refine ⟨ih, List.pairwise_singleton _ s, fun a ha b hb hab => h ?_⟩
      rw [← List.mem_singleton.mp hb, ← hab]
      exact List.mem_eraseDups.mp ha

/-- A name is counted where it stands, or it is put at the end. -/
theorem add_text_map (s : String) (count : String → Nat) {names : List String}
    (distinct : names.Nodup) :
    add (.text s) (names.map fun x => (.text x, count x)) =
      if s ∈ names then names.map fun x => (.text x, if x = s then count x + 1 else count x)
      else names.map (fun x => (.text x, count x)) ++ [(.text s, 1)] := by
  induction names with
  | nil => rfl
  | cons x names ih =>
    obtain ⟨hx, hrest⟩ := List.nodup_cons.mp distinct
    by_cases h : x = s
    · subst h
      have hother : ∀ y ∈ names, ¬ y = x := fun y hy he => hx (he ▸ hy)
      simpa [add] using fun y hy => by simp [hother y hy]
    · have h' : ¬ s = x := fun he => h he.symm
      by_cases hs : s ∈ names <;> simp [add, h, h', hs, ih hrest]

theorem ofNames_concat (names : List String) (s : String) :
    ofNames (names ++ [s]) = (ofNames names).add (.text s) := by
  have hcount : ∀ x, (names ++ [s]).count x =
      if x = s then names.count x + 1 else names.count x := by
    intro x
    by_cases h : x = s
    · simp [h]
    · simp [h, Ne.symm h]
  unfold ofNames
  rw [add_text_map s _ (nodup_eraseDups names), eraseDups_concat]
  by_cases h : s ∈ names
  · simp [h, hcount]
  · have hother : ∀ x ∈ names, ¬ x = s := fun x hx he => h (he ▸ hx)
    simpa [h, hcount, List.count_eq_zero_of_not_mem h] using hother

theorem total_ofNames (names : List String) : (ofNames names).total = names.length := by
  induction names using List.reverseRecOn with
  | nil => rfl
  | append_singleton names s ih =>
    rw [ofNames_concat, total_add, ih, List.length_append, List.length_singleton]

/-- A tally of names is a record of their counts. -/
theorem toValue_ofNames (names : List String) :
    (ofNames names).toValue = .record (names.eraseDups.map fun s => (s, .int (names.count s))) := by
  have hfields : ∀ xs : List String,
      Value.recordOf? (xs.map fun s => (.text s, .int (names.count s))) =
        some (xs.map fun s => (s, .int (names.count s))) := by
    intro xs
    induction xs with
    | nil => rfl
    | cons x xs ih => simp [Value.recordOf?, ih]
  have hentries : (ofNames names).map (fun p => (p.1, Value.int p.2)) =
      names.eraseDups.map fun s => (.text s, .int (names.count s)) := by
    simp [ofNames]
  rw [toValue, hentries, Value.ofEntries, hfields]

end Tally

/-! ## Totals -/

namespace Log

/-- How many entries are of a kind. -/
def countOf (kind : Traffic → Bool) (es : List Entry) : Nat := es.countP fun e => kind e.traffic

/-- How many entries have a direction. -/
def directed (direction : String) (es : List Entry) : Nat := countOf (·.direction == direction) es

/-- The endpoints of the outgoing entries, one for each entry. -/
def endpointNames (es : List Entry) : List String := es.filterMap (·.traffic.endpointName?)

/-- The services of the incoming entries, one for each entry that has one. -/
def serviceNames (es : List Entry) : List String := es.filterMap (·.traffic.serviceName?)

theorem countOf_concat (kind : Traffic → Bool) (es : List Entry) (e : Entry) :
    countOf kind (es ++ [e]) = countOf kind es + (kind e.traffic).toNat := by
  rw [countOf, List.countP_append, List.countP_singleton]
  cases h : kind e.traffic <;> rfl

/-- Every entry has one of the two directions. -/
theorem length_eq_directed (es : List Entry) :
    es.length = directed "incoming" es + directed "outgoing" es := by
  induction es with
  | nil => rfl
  | cons e es ih =>
    unfold directed countOf at ih ⊢
    rw [List.length_cons, ih, List.countP_cons, List.countP_cons]
    cases e.traffic <;> simp [Traffic.direction] <;> omega

/-- The totals of the log are those of these entries. -/
structure Counts (log : Log) (es : List Entry) : Prop where
  incoming : log.incoming = directed "incoming" es
  outgoing : log.outgoing = directed "outgoing" es
  errors : log.errors = countOf Traffic.isFailure es
  endpoints : log.endpoints = .ofNames (endpointNames es)
  services : log.services = .ofNames (serviceNames es)
  /-- Each outgoing entry has an endpoint to be counted by. -/
  named : (endpointNames es).length = directed "outgoing" es

variable {log : Log} {es : List Entry}

/-- What is recorded is counted once in each of the totals that it belongs to. -/
theorem record_totals (log : Log) (c : Recording) :
    let after := (log.record c.now c.traffic c.data c.extra).1
    after.incoming = log.incoming + (c.traffic.direction == "incoming").toNat ∧
      after.outgoing = log.outgoing + (c.traffic.direction == "outgoing").toNat ∧
      after.errors = log.errors + c.traffic.isFailure.toNat ∧
      after.endpoints =
        c.traffic.endpointName?.elim log.endpoints (fun s => log.endpoints.add (.text s)) ∧
      after.services =
        c.traffic.serviceName?.elim log.services (fun s => log.services.add (.text s)) := by
  obtain ⟨now, traffic, data, extra, named, free⟩ := c
  have hfree : (extra.any fun p => traffic.ownNames.contains p.1) = false := by
    simpa [List.any_eq_false] using free
  unfold record
  rw [hfree]
  cases traffic with
  | incoming service processed =>
    rcases named with rfl | ⟨s, rfl⟩
    · exact ⟨rfl, rfl, rfl, rfl, rfl⟩
    · by_cases hs : s = "" <;>
        simp [countName, countTotal, countTime, append, Value.given, Traffic.direction,
          Traffic.isFailure, Traffic.endpointName?, Traffic.serviceName?, hs]
  | outgoing endpoint success =>
    obtain ⟨s, rfl⟩ := named
    cases success <;>
      simp [countName, countTotal, countTime, append, Traffic.direction, Traffic.isFailure,
        Traffic.endpointName?, Traffic.serviceName?]

theorem Counts.record (h : log.Counts es) (c : Recording) (id : Nat) :
    (log.record c.now c.traffic c.data c.extra).1.Counts (es ++ [c.entry id]) := by
  obtain ⟨hin, hout, herrors, hendpoints, hservices⟩ := log.record_totals c
  have hentry : (c.entry id).traffic = c.traffic := rfl
  constructor
  · rw [hin, h.incoming, directed, directed, countOf_concat, hentry]
  · rw [hout, h.outgoing, directed, directed, countOf_concat, hentry]
  · rw [herrors, h.errors, countOf_concat, hentry]
  · rw [hendpoints, h.endpoints, endpointNames, endpointNames, List.filterMap_append]
    cases hname : c.traffic.endpointName? with
    | none => simp [hentry, hname]
    | some s => simp [hentry, hname, Tally.ofNames_concat]
  · rw [hservices, h.services, serviceNames, serviceNames, List.filterMap_append]
    cases hname : c.traffic.serviceName? with
    | none => simp [hentry, hname]
    | some s => simp [hentry, hname, Tally.ofNames_concat]
  · have hone : ([c.entry id].filterMap (·.traffic.endpointName?)).length =
        (c.traffic.direction == "outgoing").toNat := by
      obtain ⟨now, traffic, data, extra, named, free⟩ := c
      cases traffic with
      | incoming service processed => rfl
      | outgoing endpoint success =>
        obtain ⟨s, rfl⟩ := named
        rfl
    rw [endpointNames, List.filterMap_append, List.length_append, hone, ← endpointNames, h.named,
      directed, directed, countOf_concat, hentry]

/-- A new capacity changes none of the totals. -/
theorem Counts.resizeTo (h : log.Counts es) {v : Value} {after : Log}
    (resized : log.resizeTo v = .ok after) : after.Counts es := by
  rcases resizeTo_eq_ok resized with ⟨rfl, -⟩ | ⟨capacity, -, rfl⟩
  · exact h
  · exact ⟨h.incoming, h.outgoing, h.errors, h.endpoints, h.services, h.named⟩

/-! ## Runs -/

namespace Session

theorem counts_step {p : Session} (h : p.log.Counts p.recorded) (o : Operation) :
    (p.step o).log.Counts (p.step o).recorded := by
  cases o with
  | record c =>
    have hafter := h.record c p.log.nextId
    obtain ⟨after, hrecord, -⟩ := record_recording p.log c
    rw [hrecord] at hafter
    simpa only [step, hrecord] using hafter
  | resize n fits =>
    cases hresize : p.log.resizeTo (.int n) with
    | ok after => simpa only [step, hresize] using h.resizeTo hresize
    | error f => simpa only [step, hresize] using h
  | clear => exact ⟨rfl, rfl, rfl, rfl, rfl, rfl⟩

theorem counts_run {p : Session} (h : p.log.Counts p.recorded) (os : List Operation) :
    (p.run os).log.Counts (p.run os).recorded := by
  induction os generalizing p with
  | nil => exact h
  | cons o os ih => exact ih (counts_step h o)

/-- What has been recorded since the log was cleared, when an operation comes on top. -/
def sinceClear (before : List Traffic) : Operation → List Traffic
  | .record c => before ++ [c.traffic]
  | .resize _ _ => before
  | .clear => []

/-- No recording is left out. -/
theorem recorded_step (p : Session) (o : Operation) :
    (p.step o).recorded.map (·.traffic) = sinceClear (p.recorded.map (·.traffic)) o := by
  cases o with
  | record c =>
    obtain ⟨after, hstep, -⟩ := p.step_record c
    rw [hstep, List.map_append]
    rfl
  | resize n fits =>
    unfold step
    dsimp only
    split <;> rfl
  | clear => rfl

theorem recorded_run (p : Session) (os : List Operation) :
    (p.run os).recorded.map (·.traffic) = os.foldl sinceClear (p.recorded.map (·.traffic)) := by
  induction os generalizing p with
  | nil => rfl
  | cons o os ih => rw [List.foldl_cons, ← recorded_step, ← ih, run, run, List.foldl_cons]

/-- In every run of a new log no recording is left out. What the log tells of itself afterwards are
the numbers of what has been recorded since it was cleared, whatever was dropped in between: the
entries of each direction, those that did not go out, and how often each endpoint and each service
came up. The counts of the endpoints add up to what went out, and those of the services to what came
in with a service. It holds no more entries than it has counted, and no more than its capacity. -/
theorem run_totals (first : Nat) (os : List Operation) :
    let p := run ⟨.empty (some first), [], []⟩ os
    let endpoints := endpointNames p.recorded
    let services := serviceNames p.recorded
    p.recorded.map (·.traffic) = os.foldl sinceClear [] ∧ ∃ most : Nat, p.log.stats =
        [("stored", .int p.log.entries.length), ("capacity", .int most),
         ("incoming", .int (directed "incoming" p.recorded)),
         ("outgoing", .int (directed "outgoing" p.recorded)),
         ("errors", .int (countOf Traffic.isFailure p.recorded)),
         ("rate", .double p.log.rate),
         ("endpoints", .record (endpoints.eraseDups.map fun s => (s, .int (endpoints.count s)))),
         ("services", .record (services.eraseDups.map fun s => (s, .int (services.count s))))] ∧
      p.log.endpoints.total = directed "outgoing" p.recorded ∧
      p.log.services.total = countOf (·.serviceName?.isSome) p.recorded ∧
      p.log.entries.length ≤ p.log.incoming + p.log.outgoing ∧ p.log.entries.length ≤ most := by
  intro p endpoints services
  have hcounts : p.log.Counts p.recorded :=
    counts_run (p := ⟨.empty (some first), [], []⟩) ⟨rfl, rfl, rfl, rfl, rfl, rfl⟩ os
  have hnew : Tidy ⟨.empty (some first), [], []⟩ first :=
    ⟨rfl, Nat.zero_le _, List.nil_suffix, List.nil_suffix, rfl, rfl⟩
  obtain ⟨most, htidy⟩ := hnew.run os
  refine ⟨recorded_run _ os, most, ?_, ?_, ?_, ?_, htidy.room⟩
  · rw [stats, htidy.capacity, hcounts.incoming, hcounts.outgoing, hcounts.errors, hcounts.endpoints,
      hcounts.services, Tally.toValue_ofNames, Tally.toValue_ofNames]
  · rw [hcounts.endpoints, Tally.total_ofNames, hcounts.named]
  · rw [hcounts.services, Tally.total_ofNames, serviceNames, List.length_filterMap_eq_countP]
    rfl
  · rw [hcounts.incoming, hcounts.outgoing, ← length_eq_directed]
    exact htidy.newest.length_le

end Session

end Log

end Switchboard
