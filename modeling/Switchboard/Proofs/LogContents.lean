import Switchboard.Log

/-!
# What a log holds

A log is recorded in, cleared and given new capacities, while the clock moves in any way. The
entries that it holds are the last of those recorded since it was cleared, and their numbers are
the last ones given out. No number is given out twice.
-/
namespace Switchboard

/-- The service is a text or null, and the endpoint a text. -/
def Traffic.IsNamed : Traffic → Prop
  | .incoming service _ => service = .null ∨ ∃ s, service = .text s
  | .outgoing endpoint _ => ∃ s, endpoint = .text s

namespace Log

/-- What is recorded, and when. -/
structure Recording where
  now : Int
  traffic : Traffic
  data : Value
  extra : Record Value := []
  named : traffic.IsNamed
  free : ∀ p ∈ extra, p.1 ∉ traffic.ownNames

def Recording.entry (c : Recording) (id : Nat) : Entry := ⟨id, c.now, c.traffic, c.data, c.extra⟩

/-- What may be done with a log. A new capacity fits a machine word. -/
inductive Operation
  | record (c : Recording)
  | resize (n : Nat) (fits : n < 2 ^ 63)
  | clear

namespace Operation

/-- The capacity after an operation. -/
def capacity (before : Nat) : Operation → Nat
  | .resize n _ => n
  | _ => before

/-- How many entries there are after an operation on a log of a capacity that held `k`. -/
def held (capacity k : Nat) : Operation → Nat
  | .record _ => min (k + 1) capacity
  | .resize n _ => min k n
  | .clear => 0

end Operation

/-- The entries of a direction. No direction, or an empty one, stands for all. -/
def ofDirection (log : Log) (direction : Option String) : List Entry :=
  log.entries.filter fun e => direction.all fun d => d = "" ∨ e.traffic.direction = d

/-- A log with the entries recorded since it was last cleared, and all numbers given out so far. -/
structure Session where
  log : Log
  recorded : List Entry := []
  issued : List Nat := []

namespace Session

def step (p : Session) : Operation → Session
  | .record c =>
    match p.log.record c.now c.traffic c.data c.extra with
    | (log, .ok e) => ⟨log, p.recorded ++ [e], p.issued ++ [e.id]⟩
    | (log, .error _) => { p with log }
  | .resize n _ =>
    match p.log.resizeTo (.int n) with
    | .ok log => { p with log }
    | .error _ => p
  | .clear => { p with log := p.log.clear, recorded := [] }

def run (p : Session) (os : List Operation) : Session := os.foldl step p

end Session

/-! ## Single operations -/

theorem newest_suffix {α : Type} (capacity : Option Nat) (items : List α) :
    newest capacity items <:+ items := by
  cases capacity with
  | none => exact List.suffix_rfl
  | some n => exact List.drop_suffix _ _

theorem newest_of_length_le {α : Type} {n : Nat} {items : List α} (h : items.length ≤ n) :
    newest (some n) items = items := by
  rw [newest, Nat.sub_eq_zero_of_le h, List.drop_zero]

/-- An entry with a name that can be counted is recorded. -/
theorem record_recording (log : Log) (c : Recording) :
    ∃ after, log.record c.now c.traffic c.data c.extra = (after, .ok (c.entry log.nextId)) ∧
      after.entries = newest log.capacity (log.entries ++ [c.entry log.nextId]) ∧
      after.capacity = log.capacity ∧ after.nextId = log.nextId + 1 := by
  obtain ⟨now, traffic, data, extra, named, free⟩ := c
  have hfree : (extra.any fun p => traffic.ownNames.contains p.1) = false := by
    simpa [List.any_eq_false] using free
  unfold record
  rw [hfree]
  cases traffic with
  | incoming service processed =>
    rcases named with rfl | ⟨s, rfl⟩
    · exact ⟨_, rfl, rfl, rfl, rfl⟩
    · by_cases hs : s = ""
      · subst hs
        exact ⟨_, rfl, rfl, rfl, rfl⟩
      · have hgiven : (Value.text s).given = true := by simp [Value.given, hs]
        have hkey : (Value.text s).isKey = true := by simp
        simp [countName, hgiven, hkey, countTotal, countTime, append, Recording.entry]
  | outgoing endpoint success =>
    obtain ⟨s, rfl⟩ := named
    simp [countName, countTotal, countTime, append, Recording.entry]

/-- A capacity that fits a machine word can be given to a log that holds no more than it may. -/
theorem resizeTo_int {log : Log} {capacity n : Nat} (hc : log.capacity = some capacity)
    (hroom : log.entries.length ≤ capacity) (fits : n < 2 ^ 63) :
    ∃ after, log.resizeTo (.int n) = .ok after ∧ after.entries = newest (some n) log.entries ∧
      after.capacity = some n ∧ after.nextId = log.nextId := by
  have hgo : resizeTo.go log (.int n) = .ok (log.resize (some n)) := by
    have hcapacity : capacityOf (.int n) = .ok (some n) := by
      have hrange : ¬ ((2 : Int) ^ 63 ≤ n ∨ (n : Int) < -2 ^ 63) := by omega
      have hsign : ¬ (n : Int) < 0 := by omega
      simp only [capacityOf, hrange, hsign, if_false, Int.toNat_natCast]
    rw [resizeTo.go, hcapacity]
    rfl
  unfold resizeTo
  rw [hc]
  dsimp only
  split
  · rename_i hsame
    have hn : (n : Int) = capacity := by simpa using hsame
    obtain rfl := Int.ofNat.inj hn
    exact ⟨log, rfl, (newest_of_length_le hroom).symm, hc, rfl⟩
  · exact ⟨_, hgo, rfl, rfl, rfl⟩

/-- The entries of a direction are selected, or as many of the newest of them as asked for. -/
theorem select_newest (log : Log) (direction : Option String) (limit : Option Nat) :
    log.select direction (limit.map Int.ofNat) <:+ log.ofDirection direction ∧
      (log.select direction (limit.map Int.ofNat)).length =
        min (limit.getD (log.ofDirection direction).length) (log.ofDirection direction).length := by
  have hselect : log.select direction (limit.map Int.ofNat) =
      newest limit (log.ofDirection direction) := by
    have hall : log.entries.filter (fun _ => true) = log.entries :=
      List.filter_eq_self.mpr fun _ _ => rfl
    have hlimit : ∀ n : Nat, ¬ (n : Int) < 0 := fun n => by omega
    unfold select ofDirection
    cases direction with
    | none => cases limit <;> simp [newest, hall, hlimit]
    | some d => by_cases hd : d = "" <;> cases limit <;> simp [newest, hd, hall, hlimit]
  rw [hselect]
  refine ⟨newest_suffix _ _, ?_⟩
  cases limit with
  | none => simp
  | some n => exact length_newest n _

/-! ## Runs -/

namespace Session

/-- The log of a session is in order: it holds no more than its capacity, the last of the entries
recorded since it was cleared, which have the last numbers of those given out. -/
structure Tidy (p : Session) (most : Nat) : Prop where
  capacity : p.log.capacity = some most
  room : p.log.entries.length ≤ most
  newest : p.log.entries <:+ p.recorded
  numbered : p.recorded.map (·.id) <:+ p.issued
  issued : p.issued = List.range' 1 p.issued.length
  next : p.log.nextId = p.issued.length + 1

variable {p : Session} {most : Nat}

theorem step_record (p : Session) (c : Recording) :
    ∃ after, p.step (.record c) = ⟨after, p.recorded ++ [c.entry p.log.nextId],
        p.issued ++ [p.log.nextId]⟩ ∧
      after.entries = Log.newest p.log.capacity (p.log.entries ++ [c.entry p.log.nextId]) ∧
      after.capacity = p.log.capacity ∧ after.nextId = p.log.nextId + 1 := by
  obtain ⟨after, hrecord, hafter⟩ := record_recording p.log c
  refine ⟨after, ?_, hafter⟩
  simp only [step, hrecord]
  rfl

theorem Tidy.step_resize (h : p.Tidy most) {n : Nat} (fits : n < 2 ^ 63) :
    ∃ after, p.step (.resize n fits) = { p with log := after } ∧
      after.entries = Log.newest (some n) p.log.entries ∧ after.capacity = some n ∧
      after.nextId = p.log.nextId := by
  obtain ⟨after, hresize, hafter⟩ := resizeTo_int h.capacity h.room fits
  exact ⟨after, by simp only [step, hresize], hafter⟩

/-- Every operation brings the number of entries to what it should be. -/
theorem Tidy.length_step (h : p.Tidy most) (o : Operation) :
    (p.step o).log.entries.length = o.held most p.log.entries.length := by
  cases o with
  | record c =>
    obtain ⟨after, hstep, hentries, -, -⟩ := p.step_record c
    rw [hstep, hentries, h.capacity, length_newest, List.length_append, Nat.min_comm]
    rfl
  | resize n fits =>
    obtain ⟨after, hstep, hentries, -, -⟩ := h.step_resize fits
    rw [hstep, hentries, length_newest, Nat.min_comm]
    rfl
  | clear => rfl

theorem Tidy.step (h : p.Tidy most) (o : Operation) :
    (p.step o).Tidy (o.capacity most) := by
  have hlength := h.length_step o
  cases o with
  | record c =>
    obtain ⟨after, hstep, hentries, hcapacity, hnext⟩ := p.step_record c
    rw [hstep] at hlength ⊢
    obtain ⟨earlier, hearlier⟩ := h.newest
    obtain ⟨past, hpast⟩ := h.numbered
    refine ⟨hcapacity.trans h.capacity, ?_, ?_, ?_, ?_, ?_⟩
    · rw [hlength]
      exact Nat.min_le_right ..
    · -- what stays of the old entries and the new one ends what has been recorded
      rw [hentries]
      refine (newest_suffix _ _).trans ⟨earlier, ?_⟩
      rw [← List.append_assoc, hearlier]
    · refine ⟨past, ?_⟩
      rw [List.map_append, ← List.append_assoc, hpast]
      rfl
    · rw [List.length_append, List.length_singleton, List.range'_concat, ← h.issued, h.next,
        Nat.one_mul, Nat.add_comm 1]
    · rw [hnext, h.next, List.length_append]
      rfl
  | resize n fits =>
    obtain ⟨after, hstep, hentries, hcapacity, hnext⟩ := h.step_resize fits
    rw [hstep] at hlength ⊢
    refine ⟨hcapacity, ?_, ?_, h.numbered, h.issued, hnext.trans h.next⟩
    · rw [hlength]
      exact Nat.min_le_right ..
    · rw [hentries]
      exact (newest_suffix _ _).trans h.newest
  | clear =>
    exact ⟨h.capacity, Nat.zero_le _, List.nil_suffix, List.nil_suffix, h.issued, h.next⟩

theorem Tidy.run (h : p.Tidy most) (os : List Operation) :
    ∃ most, (p.run os).Tidy most := by
  induction os generalizing p most with
  | nil => exact ⟨most, h⟩
  | cons o os ih => exact ih (h.step o)

/-- After every run of a new log, its entries are the last of those recorded since it was cleared,
and their numbers the last of those given out, which count up from one. It holds no more than its
capacity, every operation changes their number as it should, and what is recorded is given the next
number. Of the entries of a direction, or of all, as many of the newest are selected as asked for.
-/
theorem run_contents (first : Nat) (os : List Operation) :
    let p := run ⟨.empty (some first), [], []⟩ os
    p.log.entries <:+ p.recorded ∧
      p.log.entries.map (·.id) <:+ p.issued ∧ p.issued = List.range' 1 p.issued.length ∧
      (∃ most, p.log.capacity = some most ∧ p.log.entries.length ≤ most ∧
        ∀ o, (p.step o).log.capacity = some (o.capacity most) ∧
          (p.step o).log.entries.length = o.held most p.log.entries.length) ∧
      (∀ c : Recording, (p.log.record c.now c.traffic c.data c.extra).2 =
        .ok (c.entry (p.issued.length + 1))) ∧
      ∀ (direction : Option String) (limit : Option Nat),
        p.log.select direction (limit.map Int.ofNat) <:+ p.log.ofDirection direction ∧
          (p.log.select direction (limit.map Int.ofNat)).length =
            min (limit.getD (p.log.ofDirection direction).length)
              (p.log.ofDirection direction).length := by
  intro p
  have hnew : Tidy ⟨.empty (some first), [], []⟩ first :=
    ⟨rfl, Nat.zero_le _, List.nil_suffix, List.nil_suffix, rfl, rfl⟩
  obtain ⟨most, h⟩ := hnew.run os
  refine ⟨h.newest, (h.newest.map _).trans h.numbered, h.issued,
    ⟨most, h.capacity, h.room, fun o => ⟨(h.step o).capacity, h.length_step o⟩⟩, fun c => ?_,
    p.log.select_newest⟩
  obtain ⟨after, hrecord, -⟩ := record_recording p.log c
  rw [hrecord, ← h.next]

end Session

end Log

end Switchboard
