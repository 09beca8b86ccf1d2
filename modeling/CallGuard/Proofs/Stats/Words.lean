import CallGuard.Proofs.Rolling.Words
import CallGuard.Proofs.Stats.Independence

/-!
# Families of counters in machine words

`WordStats` is a family of counters in words, one for each category. Besides what its counters calculate there is one
addition, that of the successes and the real failures of a window. A record goes to one counter only, so that this sum
has no more events than the run has records.

**Main statement** (`WordStats.run_faultless`): a counter and the families of an accepted window go in words through
every run without a fault, and no loop over slots visits more of them than there are. As long as there are less than
`2 ^ 64` records no count wraps around either, and no sum of counts is too large.
-/

namespace CallGuard

open Rolling

/-- One counter in words for each category. -/
structure WordStats (κ : Type) where
  counter : κ → WordCounter

variable {ω κ : Type} [Category κ] [DecidableEq κ]

namespace WordStats

/-- Counters that have seen nothing. -/
def start (window : Window) (origin : Int) : WordStats κ := ⟨fun _ => .start window origin⟩

/-- Count one event of category `k` at `t`. -/
def record (s : WordStats κ) (k : κ) (t : Int) : Except Fault (WordStats κ) := do
  let m ← (s.counter k).increment t
  .ok ⟨Function.update s.counter k m⟩

/-- Count records one after the other, each in the counter of its outcome. -/
def run (f : Classifier ω κ) (s : WordStats κ) (records : List (ω × Int)) : Except Fault (WordStats κ) :=
  records.foldlM (fun s r => s.record (f.category r.1) r.2) s

/-- The successes and real failures in the window that ends at `t`. -/
def legitimateAttempts (s : WordStats κ) (t : Int) : Except Fault UInt64 := do
  let passes ← (s.counter Category.successes).rollingSum t
  let failures ← (s.counter Category.failures).rollingSum t
  Word.add passes failures

end WordStats

namespace Stats

/-- The family in words. -/
def words (s : Stats κ) : WordStats κ := ⟨fun k => (s.counter k).words⟩

/-- All open buckets of a family have 64 bits. -/
def InWords (s : Stats κ) : Prop := ∀ k, (s.counter k).ring.head < UInt64.size

variable {s : Stats κ} {f : Classifier ω κ} {w : Window}

omit [DecidableEq κ] in
theorem counter_words (s : Stats κ) (k : κ) : s.words.counter k = (s.counter k).words := rfl

omit [DecidableEq κ] in
theorem words_start (valid : w.Valid) (origin : Int) : (start w valid origin : Stats κ).words = .start w origin := by
  have hcounter : ∀ k : κ, ((start w valid origin).counter k).words = WordCounter.start w origin := fun k => by
    rw [counter_start, Counter.words_start]
  exact congrArg WordStats.mk (funext hcounter)

omit [DecidableEq κ] in
theorem inWords_start (valid : w.Valid) (origin : Int) : (start w valid origin : Stats κ).InWords := by
  intro k
  rw [counter_start]
  exact Counter.head_run_start_lt valid origin []

theorem InWords.record (h : s.InWords) (k : κ) (t : Int) : (s.record k t).InWords := by
  intro l
  rw [counter_record]
  split
  · exact Counter.head_increment_lt (h l) t
  · exact h l

theorem record_words (h : s.InWords) (k : κ) (t : Int) : s.words.record k t = .ok (s.record k t).words := by
  have hcounter : Function.update s.words.counter k ((s.counter k).increment t).words = (s.record k t).words.counter := by
    funext l
    rw [counter_words, counter_record]
    by_cases hl : l = k
    · subst hl
      rw [Function.update_self, if_pos rfl]
    · rw [Function.update_of_ne hl, if_neg (Ne.symm hl), counter_words]
  rw [WordStats.record, counter_words, Counter.increment_words (h k), Fault.bind_ok, hcounter]

/-- **Every run** of a family makes the same moves in words as in natural numbers. -/
theorem run_words (h : s.InWords) (records : List (ω × Int)) : s.words.run f records = .ok (s.run f records).words := by
  induction records generalizing s with
  | nil => rfl
  | cons r records ih =>
    rw [WordStats.run, List.foldlM_cons, record_words h, Fault.bind_ok, run_cons]
    exact ih (h.record _ _)

omit [DecidableEq κ] in
/-- The sum of the successes and the real failures, if that has 64 bits. -/
theorem legitimateAttempts_words {t : Int}
    (passes : (s.counter Category.successes).words.Exact (s.counter Category.successes))
    (failures : (s.counter Category.failures).words.Exact (s.counter Category.failures))
    (hsum : s.legitimateAttempts t < UInt64.size) :
    ∃ n, s.words.legitimateAttempts t = .ok n ∧ n.toNat = s.legitimateAttempts t := by
  obtain ⟨m, hm, hmNat⟩ := passes.rollingSum t
  obtain ⟨n, hn, hnNat⟩ := failures.rollingSum t
  have hadd : m.toNat + n.toNat = s.legitimateAttempts t := by
    rw [hmNat, hnNat]
    rfl
  refine ⟨m + n, ?_, ?_⟩
  · rw [WordStats.legitimateAttempts, counter_words, counter_words, hm, Fault.bind_ok, hn, Fault.bind_ok, Word.add,
      hadd, if_pos hsum]
  · rw [UInt64.toNat_add, hadd]
    exact Nat.mod_eq_of_lt hsum

/-- A counter of a new family is a new counter that has seen the records of its category. -/
theorem counter_run_start (valid : w.Valid) (origin : Int) (records : List (ω × Int)) (k : κ) :
    (run f (start w valid origin) records).counter k =
      (Counter.start w valid origin).run (instants (f.category · = k) records) := by
  rw [counter_run, counter_start]

end Stats

/-! ## Sums of two counters -/

omit [Category κ] [DecidableEq κ] in
/-- Records of two kinds that have no outcome in common are no more than all records. -/
theorem length_instants_add_le {p q : ω → Prop} [DecidablePred p] [DecidablePred q] (apart : ∀ o, p o → ¬ q o)
    (records : List (ω × Int)) : (instants p records).length + (instants q records).length ≤ records.length := by
  induction records with
  | nil => exact Nat.le_refl 0
  | cons r records ih =>
    rw [instants_cons, instants_cons, List.length_cons]
    by_cases hp : p r.1
    · rw [if_pos hp, if_neg (apart r.1 hp), List.length_cons]
      omega
    · rw [if_neg hp]
      split
      · rw [List.length_cons]
        omega
      · omega

/-- The successes and the real failures of a window are no more than the records. -/
theorem Stats.legitimateAttempts_le {f : Classifier ω κ} {w : Window} (distinct : f.success ≠ f.failure)
    (valid : w.Valid) (origin : Int) (records : List (ω × Int)) (t : Int) :
    (run f (start w valid origin) records).legitimateAttempts t ≤ records.length := by
  have hapart : ∀ o, f.category o = Category.successes → ¬ f.category o = Category.failures := by
    intro o hsuccess hfailure
    exact distinct (((f.category_eq_successes o).mp hsuccess).symm.trans ((f.category_eq_failures o).mp hfailure))
  rw [legitimateAttempts, counter_run_start, counter_run_start]
  calc _ ≤ (instants (f.category · = Category.successes) records).length +
        (instants (f.category · = Category.failures) records).length :=
        Nat.add_le_add (Counter.rollingSum_run_start_le valid origin _ t) (Counter.rollingSum_run_start_le valid origin _ t)
    _ ≤ records.length := length_instants_add_le hapart records

/-! ## Runs without a fault -/

namespace WordStats

/-- In words the family `s` of new counters of the window `w` goes through every run without a fault, whatever its
counters are asked then; if there are less than `2 ^ 64` records, the words are the numbers of `s`. -/
def Faultless (f : Classifier ω κ) (w : Window) (origin : Int) (s : Stats κ) : Prop :=
  ∀ records : List (ω × Int), (start w origin).run f records = .ok (s.run f records).words ∧
    (∀ k, ((s.run f records).counter k).words.Safe w.buckets.toNat) ∧
    (records.length < UInt64.size →
      (∀ k, ((s.run f records).counter k).words.Exact ((s.run f records).counter k)) ∧
      ∀ t, ∃ n, (s.run f records).words.legitimateAttempts t = .ok n ∧
        n.toNat = (s.run f records).legitimateAttempts t)

theorem faultless_start {f : Classifier ω κ} {w : Window} (distinct : f.success ≠ f.failure) (valid : w.Valid)
    (origin : Int) : Faultless f w origin (.start w valid origin) := by
  intro records
  refine ⟨?_, ?_, ?_⟩
  · rw [← Stats.words_start valid]
    exact Stats.run_words (Stats.inWords_start valid origin) records
  · intro k
    rw [Stats.counter_run_start]
    exact Counter.safe_run_start valid origin _
  · intro hfew
    have hexact : ∀ k, ((Stats.run f (.start w valid origin) records).counter k).words.Exact
        ((Stats.run f (.start w valid origin) records).counter k) := by
      intro k
      have hle : (instants (f.category · = k) records).length ≤ records.length := by
        rw [instants, List.length_map]
        exact List.length_filter_le ..
      rw [Stats.counter_run_start]
      exact Counter.exact_run_start valid origin _ (Nat.lt_of_le_of_lt hle hfew)
    refine ⟨hexact, fun t => Stats.legitimateAttempts_words (hexact _) (hexact _) ?_⟩
    exact Nat.lt_of_le_of_lt (Stats.legitimateAttempts_le distinct valid origin records t) hfew

/-- **No fault in the arithmetic of counters.** A counter of an accepted window can be made at any origin, and in words
it goes through every run of events at any instants to where it comes in natural numbers. After each run no bucket is
divided by zero, every slot is there, and neither the numbers of buckets nor the loops over slots come out of their
bounds, for buckets anywhere in 64 bits; and a loop visits no more slots than there are. With less than `2 ^ 64` events
no count has wrapped around and every window can be added up. The same holds of the families for calls and for
fallbacks, where the successes and the real failures of a window can be added up too. -/
theorem run_faultless {w : Window} (accepted : w.problems Window.commonScope = []) (origin : Int) :
    (∃ c, Counter.create w origin = .ok c ∧ ∀ ts, (WordCounter.start w origin).run ts = .ok (c.run ts).words ∧
      (c.run ts).words.Safe w.buckets.toNat ∧ (ts.length < UInt64.size → (c.run ts).words.Exact (c.run ts))) ∧
    (∃ s : CallStats, Stats.create w origin = .ok s ∧ Faultless CallOutcome.classifier w origin s) ∧
    ∃ s : FallbackStats, Stats.create w origin = .ok s ∧ Faultless FallbackOutcome.classifier w origin s := by
  have valid := Window.problems_eq_nil_iff.mp accepted
  refine ⟨⟨_, Counter.create_of_valid valid origin, fun ts => ?_⟩, ?_, ?_⟩
  · refine ⟨?_, Counter.safe_run_start valid origin ts, Counter.exact_run_start valid origin ts⟩
    rw [← Counter.words_start valid]
    exact Counter.run_words (Counter.head_run_start_lt valid origin []) ts
  · exact ⟨_, Stats.create_of_valid valid origin, faultless_start (by decide) valid origin⟩
  · exact ⟨_, Stats.create_of_valid valid origin, faultless_start (by decide) valid origin⟩

/-- In buckets of a millisecond, events of the last two buckets of 64 bits, of the one after these, which is bucket 0
again, and of an instant before the origin. -/
def lateCalls : List (CallOutcome × Int) :=
  [(.success, 18446744073709551614000000), (.failure, 18446744073709551615000000), (.success, 18446744073709551616000000),
    (.failure, -5)]

/-- Three buckets go through all of 64 bits: what comes after them is late, and counts in the totals alone. -/
theorem run_faultless_late : (⟨1, 3⟩ : Window).problems Window.commonScope = [] ∧ lateCalls.length < UInt64.size ∧
    (∃ m, (WordCounter.start ⟨1, 3⟩ 0).run (lateCalls.map Prod.snd) = .ok m ∧ m.Safe 3 ∧ m.total = 4 ∧
      m.rollingSum 18446744073709551615000000 = .ok 2) ∧
    ∃ m : WordStats CallCategory, (start ⟨1, 3⟩ 0).run CallOutcome.classifier lateCalls = .ok m ∧
      m.legitimateAttempts 18446744073709551615000000 = .ok 2 := by
  obtain ⟨⟨c, hc, hcounter⟩, ⟨s, hs, hfamily⟩, -⟩ := run_faultless (w := ⟨1, 3⟩) (by decide) 0
  obtain rfl := Except.ok.inj (hc.symm.trans (Counter.create_of_valid (by decide) 0))
  obtain rfl := Except.ok.inj (hs.symm.trans (Stats.create_of_valid (by decide) 0))
  refine ⟨by decide, by decide, ?_, ?_⟩
  · obtain ⟨hrun, hsafe, hexact⟩ := hcounter (lateCalls.map Prod.snd)
    have hexact := hexact (by decide)
    obtain ⟨n, hn, hnNat⟩ := hexact.rollingSum 18446744073709551615000000
    refine ⟨_, hrun, hsafe, ?_, ?_⟩
    · exact UInt64.toNat_inj.mp (hexact.total_eq.trans (by decide +kernel))
    · rw [hn, UInt64.toNat_inj.mp (hnNat.trans (show _ = (2 : UInt64).toNat by decide +kernel))]
  · obtain ⟨hrun, -, hexact⟩ := hfamily lateCalls
    obtain ⟨n, hn, hnNat⟩ := (hexact (by decide)).2 18446744073709551615000000
    refine ⟨_, hrun, ?_⟩
    rw [hn, UInt64.toNat_inj.mp (hnNat.trans (show _ = (2 : UInt64).toNat by decide +kernel))]

/-- The window has to be accepted: without buckets there is no slot to find. -/
example : (WordCounter.start ⟨1, 0⟩ 0).slot 0 = .error .zeroDivisor := rfl

end WordStats
end CallGuard
