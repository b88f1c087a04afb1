import Switchboard.Proofs.NearestMagnitudes
import Switchboard.Proofs.RecordingFaults

/-!
# The traffic of the last two seconds

The times that the rate counts are thinned out whenever something is recorded, and only then. So as
long as the clock does not go back, the rate is that of the two seconds before the newest recording.
It is the rate of the last two seconds exactly if nothing that it counts has become too old since.
-/
namespace Switchboard

/-! ## Halves of naturals -/

namespace Double

/-- The half of a natural of 53 binary digits is a double. -/
theorem ofRatio_two {n : Nat} (hn : n < 2 ^ 53) :
    ∃ r : Magnitude, ofRatio false n 2 = .finite false r ∧ r.value * 2 = n := by
  rcases Nat.eq_zero_or_pos n with rfl | hpos
  · exact ⟨0, rfl, by simp [Magnitude.value, Magnitude.significand]⟩
  · have htwo : (2 : ℚ) ≠ 0 := by norm_num
    obtain ⟨k, hk⟩ := Nat.exists_eq_add_of_le' (Nat.le_of_lt_succ ((Nat.log2_lt hpos.ne').mpr hn))
    have hlow : 2 ^ n.log2 ≤ n := Nat.log2_self_le hpos.ne'
    have hhigh : n < 2 ^ (n.log2 + 1) := Nat.lt_log2_self
    -- `k` zeros behind the digits of `n` make a significand
    have hleast : 2 ^ 52 ≤ n * 2 ^ k := by
      calc 2 ^ 52 = 2 ^ n.log2 * 2 ^ k := by rw [hk, Nat.pow_add, Nat.mul_comm]
        _ ≤ n * 2 ^ k := Nat.mul_le_mul_right _ hlow
    have hmost : n * 2 ^ k < 2 ^ 53 := by
      calc n * 2 ^ k < 2 ^ (n.log2 + 1) * 2 ^ k := by gcongr
        _ = 2 ^ 53 := by rw [← Nat.pow_add]; congr 1; omega
    have hexponent : max (binaryExponent n 2 - 52) (-1074) = -(k : Int) - 1 := by
      have he : binaryExponent n 2 = (n.log2 : Int) - 1 := by
        obtain ⟨hle, hlt⟩ := two_zpow_log2 hpos
        apply binaryExponent_eq hpos Nat.two_pos
        · rw [zpow_sub_one₀ htwo]
          push_cast
          linarith
        · rw [sub_add_cancel]
          rw [zpow_add_one₀ htwo] at hlt
          push_cast
          linarith
      omega
    have hscale : (n * 2 ^ k : Nat) * (2 : ℚ) ^ (-(k : Int) - 1) * 2 = n := by
      rw [zpow_sub_one₀ htwo, zpow_neg, zpow_natCast]
      rw [Nat.cast_mul, Nat.cast_pow, Nat.cast_ofNat, ← mul_assoc,
        mul_inv_cancel_right₀ (pow_ne_zero k htwo), inv_mul_cancel_right₀ htwo]
    have hdouble : ofRatio false n 2 =
        ofRank false ((-(k : Int) - 1 + 1074).toNat * 2 ^ 52 + n * 2 ^ k) := by
      apply ofRatio_eq_ofRank hpos Nat.two_pos hexponent
      have hunits : (n : ℚ) / (2 : Nat) / 2 ^ (-(k : Int) - 1) = (n * 2 ^ k : Nat) := by
        rw [div_eq_iff (zpow_ne_zero _ htwo), div_eq_iff (by norm_num), Nat.cast_ofNat, hscale]
      rw [hunits, sub_self, abs_zero]
      norm_num
    have hrank : (-(k : Int) - 1 + 1074).toNat * 2 ^ 52 + n * 2 ^ k < 2047 * 2 ^ 52 := by omega
    refine ⟨⟨_, hrank⟩, by rw [hdouble, ofRank, dif_pos hrank], ?_⟩
    rw [(Magnitude.value_eq_of_val_eq rfl (by omega) hmost.le (Or.inr hleast)).1, hscale]

end Double

namespace Log

/-- Twice the rate that the log tells is this number. -/
def RateIs (log : Log) (n : Nat) : Prop :=
  ∃ r : Magnitude, Record.get? log.stats "rate" = some (.double (.finite false r)) ∧
    r.value * 2 = n

theorem rateIs_iff {log : Log} (few : log.recent.length < 2 ^ 53) (n : Nat) :
    log.RateIs n ↔ n = log.recent.length := by
  obtain ⟨r, hr, hvalue⟩ := Double.ofRatio_two few
  have hstats : Record.get? log.stats "rate" = some (.double (.finite false r)) := by
    simp [stats, Record.get?_cons, rate, hr]
  unfold RateIs
  rw [hstats]
  constructor
  · rintro ⟨r', hr', hn⟩
    obtain rfl : r = r' := by simpa using hr'
    exact_mod_cast hn.symm.trans hvalue
  · rintro rfl
    exact ⟨r, rfl, hvalue⟩

/-- Of times in order, those before the first one that is late enough are dropped. -/
theorem dropWhile_lt_eq_filter {times : List Int} (ordered : times.Pairwise (· ≤ ·)) (first : Int) :
    times.dropWhile (· < first) = times.filter (first ≤ ·) := by
  induction times with
  | nil => rfl
  | cons t times ih =>
    obtain ⟨ht, hrest⟩ := List.pairwise_cons.mp ordered
    by_cases h : t < first
    · rw [List.dropWhile_cons_of_pos (by simpa using h), ih hrest,
        List.filter_cons_of_neg (by simpa using h)]
    · have hall : ∀ s ∈ t :: times, decide (first ≤ s) = true := by
        intro s hs
        rcases List.mem_cons.mp hs with rfl | hs
        · simpa using h
        · have := ht s hs
          simp only [decide_eq_true_eq]
          omega
      rw [List.dropWhile_cons_of_neg (by simpa using h), List.filter_eq_self.mpr hall]

/-! ## Runs -/

/-- What may happen to a log. The clock goes on by some milliseconds or stands still. -/
inductive Event
  | record (traffic : Traffic) (data : Value) (extra : Record Value)
  | resize (capacity : Value)
  | clear
  | tick (ms : Nat)

/-- A log, the clock, and the times of the recordings that were made since the log was cleared. -/
structure Watch where
  log : Log
  clock : Int
  times : List Int := []

namespace Watch

/-- A recording that fails is none. -/
def step (p : Watch) : Event → Watch
  | .record traffic data extra =>
    match p.log.record p.clock traffic data extra with
    | (log, .ok e) => { p with log, times := p.times ++ [e.time] }
    | (log, .error _) => { p with log }
  | .resize capacity =>
    match p.log.resizeTo capacity with
    | .ok log => { p with log }
    | .error _ => p
  | .clear => { p with log := p.log.clear, times := [] }
  | .tick ms => { p with clock := p.clock + ms }

def run (p : Watch) (es : List Event) : Watch := es.foldl step p

/-- When the newest recording was made, and the time of the clock if there is none. -/
def newest (p : Watch) : Int := p.times.getLastD p.clock

/-- How many recordings were made from a time on. -/
def countFrom (p : Watch) (first : Int) : Nat := p.times.countP (first ≤ ·)

/-- The times are in order, and the log has those of the two seconds before the newest one. -/
structure Paced (p : Watch) : Prop where
  ordered : p.times.Pairwise (· ≤ ·)
  past : ∀ t ∈ p.times, t ≤ p.clock
  recent : p.log.recent = p.times.filter (p.newest - rateWindow ≤ ·)

end Watch

theorem recent_countName {log after : Log} {traffic : Traffic}
    (h : log.countName traffic = .ok after) : after.recent = log.recent := by
  cases traffic with
  | incoming service processed =>
    unfold countName at h
    dsimp only at h
    split at h
    · cases h; rfl
    · split at h
      · cases h; rfl
      · cases h
  | outgoing endpoint success =>
    unfold countName at h
    dsimp only at h
    split at h
    · cases h; rfl
    · cases h

/-- A recording that succeeds adds its time, and one that fails does not. -/
theorem record_recent (log : Log) (now : Int) (traffic : Traffic) (data : Value)
    (extra : Record Value) :
    (∃ after e, log.record now traffic data extra = (after, .ok e) ∧ e.time = now ∧
        after.recent = (log.recent ++ [now]).dropWhile (· < now - rateWindow)) ∨
      ∃ after f, log.record now traffic data extra = (after, .error f) ∧
        after.recent = log.recent := by
  by_cases h : IsReserved traffic extra
  · exact Or.inr ⟨_, _, log.record_of_isReserved now data h, rfl⟩
  · have hrecord := log.record_of_not_isReserved now data h
    dsimp only at hrecord
    have hkept : ∀ e, ((log.append e).countTotal traffic).recent = log.recent := by
      intro e
      cases traffic <;> rfl
    cases hcount : ((log.append ⟨log.nextId, now, traffic, data, extra⟩).countTotal
        traffic).countName traffic with
    | ok counted =>
      rw [hcount] at hrecord
      refine Or.inl ⟨_, _, hrecord, rfl, ?_⟩
      rw [countTime, recent_countName hcount, hkept]
    | error f =>
      rw [hcount] at hrecord
      exact Or.inr ⟨_, _, hrecord, hkept _⟩

namespace Watch

variable {p : Watch}

theorem Paced.newest_le (h : p.Paced) : p.newest ≤ p.clock := by
  unfold newest
  rcases List.eq_nil_or_concat p.times with hnil | ⟨earlier, t, hlast⟩
  · rw [hnil]
    exact Int.le_refl _
  · have ht := h.past t (by simp [hlast])
    simpa [hlast] using ht

/-- What was too old for the newest recording is too old now. -/
theorem Paced.filter_recent (h : p.Paced) :
    (p.times.filter (p.newest - rateWindow ≤ ·)).filter (p.clock - rateWindow ≤ ·) =
      p.times.filter (p.clock - rateWindow ≤ ·) := by
  have hle := h.newest_le
  rw [List.filter_filter]
  apply List.filter_congr
  intro t _
  rw [← Bool.decide_and, decide_eq_decide]
  omega

/-- The clock may go on as long as the log and the times are left alone. -/
theorem Paced.of_recent (h : p.Paced) {log : Log} (hlog : log.recent = p.log.recent) {clock : Int}
    (hclock : p.clock ≤ clock) : Paced ⟨log, clock, p.times⟩ := by
  refine ⟨h.ordered, fun t ht => (h.past t ht).trans hclock, ?_⟩
  rw [hlog, h.recent]
  rcases List.eq_nil_or_concat p.times with hnil | ⟨earlier, t, hlast⟩
  · simp [hnil]
  · have hnewest : (⟨log, clock, p.times⟩ : Watch).newest = p.newest := by
      simp [newest, hlast]
    rw [hnewest]

/-- With a new recording the times that are too old for it go. -/
theorem Paced.record (h : p.Paced) {log : Log}
    (hlog : log.recent = (p.log.recent ++ [p.clock]).dropWhile (· < p.clock - rateWindow)) :
    Paced ⟨log, p.clock, p.times ++ [p.clock]⟩ := by
  have hordered : (p.times ++ [p.clock]).Pairwise (· ≤ ·) := by
    rw [List.pairwise_append]
    refine ⟨h.ordered, List.pairwise_singleton _ _, fun t ht u hu => ?_⟩
    rw [List.mem_singleton.mp hu]
    exact h.past t ht
  refine ⟨hordered, ?_, ?_⟩
  · intro t ht
    rcases List.mem_append.mp ht with ht | ht
    · exact h.past t ht
    · exact (List.mem_singleton.mp ht).le
  · have hnewest : (⟨log, p.clock, p.times ++ [p.clock]⟩ : Watch).newest = p.clock := by
      simp [newest]
    have hkept : (p.log.recent ++ [p.clock]).Pairwise (· ≤ ·) := by
      rw [h.recent]
      exact hordered.sublist (List.filter_sublist.append (List.Sublist.refl _))
    rw [hlog, hnewest, dropWhile_lt_eq_filter hkept, List.filter_append, List.filter_append,
      h.recent, h.filter_recent]

theorem Paced.step (h : p.Paced) (e : Event) : (p.step e).Paced := by
  cases e with
  | record traffic data extra =>
    rcases p.log.record_recent p.clock traffic data extra with
      ⟨after, e, hrecord, htime, hrecent⟩ | ⟨after, f, hrecord, hrecent⟩
    · simp only [Watch.step, hrecord, htime]
      exact h.record hrecent
    · simp only [Watch.step, hrecord]
      exact h.of_recent hrecent (Int.le_refl _)
  | resize capacity =>
    cases hresize : p.log.resizeTo capacity with
    | ok after =>
      simp only [Watch.step, hresize]
      apply h.of_recent _ (Int.le_refl _)
      rcases resizeTo_eq_ok hresize with ⟨rfl, -⟩ | ⟨n, -, rfl⟩ <;> rfl
    | error f =>
      simp only [Watch.step, hresize]
      exact h
  | clear => exact ⟨List.Pairwise.nil, by simp [Watch.step], rfl⟩
  | tick ms => exact h.of_recent rfl (by omega)

theorem Paced.run (h : p.Paced) (es : List Event) : (p.run es).Paced := by
  induction es generalizing p with
  | nil => exact h
  | cons e es ih => exact ih (h.step e)

theorem Paced.length_recent (h : p.Paced) :
    p.log.recent.length = p.countFrom (p.newest - rateWindow) := by
  rw [h.recent, countFrom, List.countP_eq_length_filter]

/-- Nothing that the rate counts has become too old since the newest recording. -/
def IsFresh (p : Watch) : Prop :=
  ∀ t ∈ p.times, p.newest - rateWindow ≤ t → p.clock - rateWindow ≤ t

theorem Paced.countFrom_eq_iff (h : p.Paced) :
    p.countFrom (p.clock - rateWindow) = p.countFrom (p.newest - rateWindow) ↔ p.IsFresh := by
  have hlater : p.countFrom (p.clock - rateWindow) =
      ((p.times.filter (p.newest - rateWindow ≤ ·)).filter (p.clock - rateWindow ≤ ·)).length := by
    rw [h.filter_recent, countFrom, List.countP_eq_length_filter]
  have hall : p.countFrom (p.newest - rateWindow) =
      (p.times.filter (p.newest - rateWindow ≤ ·)).length := by
    rw [countFrom, List.countP_eq_length_filter]
  rw [hlater, hall, List.length_filter_eq_length_iff]
  simp [IsFresh]

/-- In every run of a new log in which the clock does not go back, the rate is half the number of
recordings made in the two seconds before the newest one. So twice the rate is the number of those
made in the last two seconds exactly if none of the former has become too old since. -/
theorem run_rate (capacity : Option Nat) (start : Int) (es : List Event) :
    let p := run ⟨.empty capacity, start, []⟩ es
    p.log.rate = .ofRatio false (p.countFrom (p.newest - rateWindow)) 2 ∧
      (p.countFrom (p.clock - rateWindow) = p.countFrom (p.newest - rateWindow) ↔ p.IsFresh) ∧
      (p.times.length < 2 ^ 53 →
        p.log.RateIs (p.countFrom (p.newest - rateWindow)) ∧
          (p.log.RateIs (p.countFrom (p.clock - rateWindow)) ↔ p.IsFresh)) := by
  intro p
  have hnew : Paced ⟨.empty capacity, start, []⟩ := ⟨List.Pairwise.nil, by simp, rfl⟩
  have hpaced : p.Paced := hnew.run es
  have hlength := hpaced.length_recent
  refine ⟨by rw [rate, hlength], hpaced.countFrom_eq_iff, fun few => ?_⟩
  have hfew : p.log.recent.length < 2 ^ 53 := by
    rw [hlength]
    exact List.countP_le_length.trans_lt few
  refine ⟨(rateIs_iff hfew _).mpr hlength.symm, ?_⟩
  rw [rateIs_iff hfew, hlength]
  exact hpaced.countFrom_eq_iff

/-- Something has come in, something has gone out a second and a half later, and half a second after
that both are still counted. -/
theorem run_rate_fresh :
    let p := run ⟨.empty (some 1), 0, []⟩
      [.record (.incoming .null true) .null [], .tick 1500,
        .record (.outgoing (.text "/a") true) .null [], .tick 500]
    p.times.length < 2 ^ 53 ∧ p.countFrom (p.clock - rateWindow) = 2 ∧ p.log.RateIs 2 := by
  intro p
  have hfew : p.times.length < 2 ^ 53 := by decide
  obtain ⟨-, -, h⟩ := run_rate (some 1) 0
    [.record (.incoming .null true) .null [], .tick 1500,
      .record (.outgoing (.text "/a") true) .null [], .tick 500]
  exact ⟨hfew, by decide, (h hfew).2.mpr (by unfold IsFresh; decide)⟩

/-- Five seconds after something has come in, the rate still counts it. -/
theorem not_rateIs_idle :
    let p := run ⟨.empty (some 100), 0, []⟩ [.record (.incoming .null true) .null [], .tick 5000]
    p.countFrom (p.clock - rateWindow) = 0 ∧ ¬ p.log.RateIs 0 := by
  intro p
  have hfew : p.log.recent.length < 2 ^ 53 := by decide
  exact ⟨by decide, fun h => absurd ((rateIs_iff hfew 0).mp h) (by decide)⟩

end Watch

end Log

end Switchboard
