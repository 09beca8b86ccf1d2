import Mathlib.Data.List.Nodup
import CallGuard.Proofs.Registry.Operations
import CallGuard.Proofs.Text.Bytes
import CallGuard.Settings.Decode

/-!
# The rules that settings may break

Settings are subject to `Rule`s: every window that they hold has a positive width and at least one bucket, and the log
level is known. `Rule.Broken` says when settings break a rule, without any order, and `Rule.problem` is the problem that
tells of it. The rules have an order of their own (`Rule.Before`): those of the common window come first, those of
overrides follow by the bytes of the names, the level is last, and in a window the width precedes the number of buckets.

* **One problem for each** (`Settings.problems_eq_map`): the problems of settings are those of a list of rules,
  `Settings.broken`.
* **Exactly the broken ones** (`Settings.mem_broken`): that list has the rules that are broken and no other.
* **Order** (`Settings.pairwise_broken`): it is strictly increasing, so that no rule is there twice.

**Main statement** (`Settings.check_exact`): settings are accepted exactly if they break no rule, and otherwise refused
with the problem of every broken rule, once and in the order of the rules, however the overrides are listed.
-/

namespace CallGuard

/-- A rule for settings. The window of no circuit is the common one. -/
inductive Rule
  /-- The buckets of the window have a width. -/
  | width (circuit : Option String)
  /-- The window has a bucket. -/
  | buckets (circuit : Option String)
  /-- The log level is known. -/
  | level
deriving DecidableEq, Repr

/-- The window that settings hold for a circuit, or for all the others. -/
def Settings.ownWindow? (s : Settings) : Option String → Option Window
  | none => some s.window
  | some name => (s.override? name).bind (·.window)

/-- The place of a window. -/
def Window.scopeOf : Option String → String
  | none => commonScope
  | some name => Override.scope name

namespace Rule

/-- The settings break the rule. -/
def Broken (s : Settings) : Rule → Prop
  | .width c => ∃ w, s.ownWindow? c = some w ∧ w.bucketMs = 0
  | .buckets c => ∃ w, s.ownWindow? c = some w ∧ w.buckets = 0
  | .level => s.logging.level.toLower ∉ ["trace", "debug", "info", "warn", "error"]

/-- The problem of settings that break the rule. -/
def problem (s : Settings) : Rule → Problem
  | .width c => .zeroWidth (Window.scopeOf c)
  | .buckets c => .noBuckets (Window.scopeOf c)
  | .level => .unknownLevel s.logging.level

/-- The rank of a rule: the part of the settings that it is about, the bytes of the circuit, and the field. -/
def rank : Rule → Nat × List UInt8 × Nat
  | .width none => (0, [], 0)
  | .buckets none => (0, [], 1)
  | .width (some name) => (1, Text.bytes name, 0)
  | .buckets (some name) => (1, Text.bytes name, 1)
  | .level => (2, [], 0)

/-- The one rule comes before the other. -/
def Before (a b : Rule) : Prop := Prod.Lex (· < ·) (Prod.Lex (· < ·) (· < ·)) a.rank b.rank

variable {a b : Rule}

theorem Before.ne (h : a.Before b) : a ≠ b := by
  rintro rfl
  rcases (Prod.lex_def.mp h) with hpart | ⟨-, hrest⟩
  · exact Nat.lt_irrefl _ hpart
  · rcases (Prod.lex_def.mp hrest) with hbytes | ⟨-, hfield⟩
    · exact List.lt_irrefl _ hbytes
    · exact Nat.lt_irrefl _ hfield

theorem scope_injective {name name' : String} (h : Override.scope name = Override.scope name') : name = name' := by
  have hchars := congrArg String.toList h
  simp only [Override.scope, String.toList_append] at hchars
  exact String.toList_inj.mp (List.append_cancel_left (List.append_cancel_right hchars))

/-- The window of an override is not at the place of the common one, whatever the name. -/
theorem scope_ne_commonScope (name : String) : Override.scope name ≠ Window.commonScope := by
  intro h
  have hlength := congrArg String.length h
  simp only [Override.scope, Window.commonScope, String.length_append] at hlength
  have hfront : "circuits.".length = 9 := rfl
  have hcommon : "rolling".length = 7 := rfl
  omega

/-- Different windows have different places. -/
theorem scopeOf_injective {c d : Option String} (h : Window.scopeOf c = Window.scopeOf d) : c = d := by
  cases c with
  | none =>
    cases d with
    | none => rfl
    | some name => exact absurd h.symm (scope_ne_commonScope name)
  | some name =>
    cases d with
    | none => exact absurd h (scope_ne_commonScope name)
    | some name' => exact congrArg some (scope_injective h)

/-- Different rules have different problems. -/
theorem problem_injective {s : Settings} (h : a.problem s = b.problem s) : a = b := by
  cases a with
  | width c =>
    cases b with
    | width d => exact congrArg width (scopeOf_injective (Problem.zeroWidth.inj h))
    | buckets | level => cases h
  | buckets c =>
    cases b with
    | buckets d => exact congrArg buckets (scopeOf_injective (Problem.noBuckets.inj h))
    | width | level => cases h
  | level =>
    cases b with
    | level => rfl
    | width | buckets => cases h

end Rule

/-! ## The rules of a window -/

/-- The rules that a window breaks. -/
def Window.broken (c : Option String) (w : Window) : List Rule :=
  (if w.bucketMs = 0 then [.width c] else []) ++ (if w.buckets = 0 then [.buckets c] else [])

/-- The rules that an override for circuits named `name` breaks. -/
def Override.broken (name : String) (o : Override) : List Rule :=
  match o.window with
  | some w => w.broken (some name)
  | none => []

section Window

variable {c : Option String} {w : Window} {o : Override} {name : String} {rule : Rule}

theorem Window.problems_eq_map (s : Settings) (c : Option String) (w : Window) :
    w.problems (scopeOf c) = (w.broken c).map (Rule.problem s) := by
  unfold Window.problems broken
  split <;> split <;> rfl

theorem Override.problems_eq_map (s : Settings) (name : String) (o : Override) :
    o.problems name = (o.broken name).map (Rule.problem s) := by
  rw [Override.problems, Override.broken]
  cases o.window with
  | none => rfl
  | some w => exact Window.problems_eq_map s (some name) w

theorem Window.mem_broken : rule ∈ w.broken c ↔
    rule = .width c ∧ w.bucketMs = 0 ∨ rule = .buckets c ∧ w.buckets = 0 := by
  unfold Window.broken
  by_cases h₁ : w.bucketMs = 0 <;> by_cases h₂ : w.buckets = 0 <;> simp [h₁, h₂]

theorem Override.mem_broken : rule ∈ o.broken name ↔ ∃ w, o.window = some w ∧ rule ∈ w.broken (some name) := by
  unfold Override.broken
  cases o.window <;> simp

theorem Window.pairwise_broken (c : Option String) (w : Window) : (w.broken c).Pairwise Rule.Before := by
  have hfields : (Rule.width c).Before (.buckets c) := by
    cases c with
    | none => exact Prod.Lex.right _ (Prod.Lex.right _ (Nat.lt_add_one 0))
    | some name => exact Prod.Lex.right _ (Prod.Lex.right _ (Nat.lt_add_one 0))
  unfold Window.broken
  split <;> split <;> simp [hfields]

theorem Override.pairwise_broken (name : String) (o : Override) : (o.broken name).Pairwise Rule.Before := by
  unfold Override.broken
  split
  · exact Window.pairwise_broken ..
  · exact List.Pairwise.nil

/-- The rules of the common window come before all that are not its own. -/
theorem Window.before_of_common {rule' : Rule} (h : rule ∈ w.broken none) (h' : rule'.rank.1 ≠ 0) :
    rule.Before rule' := by
  have hrank : rule.rank.1 = 0 := by
    rcases Window.mem_broken.mp h with ⟨rfl, -⟩ | ⟨rfl, -⟩ <;> rfl
  exact Prod.lex_def.mpr (.inl (hrank ▸ Nat.pos_of_ne_zero h'))

theorem Override.rank_of_broken (h : rule ∈ o.broken name) : rule.rank.1 = 1 ∧ rule.rank.2.1 = Text.bytes name := by
  obtain ⟨w, -, hrule⟩ := Override.mem_broken.mp h
  rcases Window.mem_broken.mp hrule with ⟨rfl, -⟩ | ⟨rfl, -⟩ <;> exact ⟨rfl, rfl⟩

end Window

/-! ## The rules of settings -/

namespace Settings

/-- The rules that settings break. -/
def broken (s : Settings) : List Rule :=
  s.window.broken none ++ (byName s.overrides).flatMap (fun e => e.2.broken e.1) ++
    if s.logging.level.toLower ∈ LogSettings.levels then [] else [.level]

/-- The circuits that have overrides are different. -/
def Distinct (s : Settings) : Prop := (s.overrides.map Prod.fst).Nodup

instance (s : Settings) : Decidable s.Distinct := inferInstanceAs (Decidable (List.Nodup _))

variable {s : Settings} {overrides : List (String × Override)} {rule : Rule}

/-- **Every problem is that of a rule**, in the same order. -/
theorem problems_eq_map (s : Settings) : s.problems = s.broken.map (Rule.problem s) := by
  have hlog : s.logging.problems =
      (if s.logging.level.toLower ∈ LogSettings.levels then [] else [Rule.level]).map (Rule.problem s) := by
    unfold LogSettings.problems
    split <;> rfl
  rw [problems, broken, List.map_append, List.map_append, List.map_flatMap, hlog]
  simp only [Override.problems_eq_map s]
  rw [← Window.problems_eq_map s none]
  rfl

/-! ### Overrides by name -/

/-- A lookup finds exactly the entries of a list, if their keys are different. -/
theorem lookup_eq_some_iff_mem {ν : Type} {l : List (String × ν)} (distinct : (l.map Prod.fst).Nodup) {key : String}
    {x : ν} : l.lookup key = some x ↔ (key, x) ∈ l := by
  rw [List.lookup_eq_some_iff]
  constructor
  · rintro ⟨before, after, heq, -⟩
    rw [heq]
    exact List.mem_append_right _ List.mem_cons_self
  · intro hmem
    obtain ⟨before, after, heq⟩ := List.append_of_mem hmem
    refine ⟨before, after, heq, fun e he => ?_⟩
    rw [heq, List.map_append, List.nodup_append] at distinct
    simpa using (distinct.2.2 e.1 (List.mem_map_of_mem he) key List.mem_cons_self).symm

theorem byName_perm (overrides : List (String × Override)) : (byName overrides).Perm overrides :=
  List.mergeSort_perm ..

theorem pairwise_byName (overrides : List (String × Override)) :
    (byName overrides).Pairwise fun a b => a.1 ≤ b.1 := by
  have hsorted := @List.pairwise_mergeSort (String × Override) (fun a b => decide (a.1 ≤ b.1))
    (fun a b c hab hbc => decide_eq_true (String.le_trans (of_decide_eq_true hab) (of_decide_eq_true hbc)))
    (fun a b => by simpa using String.le_total a.1 b.1) overrides
  exact hsorted.imp of_decide_eq_true

/-- Overrides of different circuits are listed in strictly increasing order of the bytes of the names. -/
theorem pairwise_bytes_byName (distinct : (overrides.map Prod.fst).Nodup) :
    (byName overrides).Pairwise fun a b => Text.bytes a.1 < Text.bytes b.1 := by
  have hne : (byName overrides).Pairwise fun a b => a.1 ≠ b.1 :=
    List.pairwise_map.mp (((byName_perm overrides).map Prod.fst).nodup_iff.mpr distinct)
  refine ((pairwise_byName overrides).and hne).imp fun {a b} hab => Text.bytes_lt (String.not_le.mp fun hba => ?_)
  exact hab.2 (String.le_antisymm hab.1 hba)

/-- The order in which overrides of different circuits are given does not matter. -/
theorem byName_congr {others : List (String × Override)} (distinct : (overrides.map Prod.fst).Nodup)
    (h : others.Perm overrides) : byName others = byName overrides := by
  refine List.Perm.eq_of_pairwise ?_ (pairwise_byName others) (pairwise_byName overrides)
    (((byName_perm others).trans h).trans (byName_perm overrides).symm)
  intro a b ha hb hab hba
  have ha' := h.mem_iff.mp ((byName_perm others).mem_iff.mp ha)
  have hb' := (byName_perm overrides).mem_iff.mp hb
  exact List.inj_on_of_nodup_map distinct ha' hb' (String.le_antisymm hab hba)

theorem override?_eq_some_iff (distinct : s.Distinct) {name : String} {o : Override} :
    s.override? name = some o ↔ (name, o) ∈ s.overrides :=
  lookup_eq_some_iff_mem distinct

/-! ### The broken rules -/

/-- **The rules that are listed are those that are broken.** -/
theorem mem_broken (distinct : s.Distinct) : rule ∈ s.broken ↔ rule.Broken s := by
  have hoverrides : rule ∈ (byName s.overrides).flatMap (fun e => e.2.broken e.1) ↔
      ∃ name w, s.ownWindow? (some name) = some w ∧ rule ∈ w.broken (some name) := by
    rw [List.mem_flatMap]
    constructor
    · rintro ⟨⟨name, o⟩, hmem, hrule⟩
      obtain ⟨w, hw, hrule⟩ := Override.mem_broken.mp hrule
      have hfound := (override?_eq_some_iff distinct).mpr ((byName_perm _).mem_iff.mp hmem)
      exact ⟨name, w, Option.bind_eq_some_iff.mpr ⟨o, hfound, hw⟩, hrule⟩
    · rintro ⟨name, w, hw, hrule⟩
      obtain ⟨o, hfound, hw⟩ := Option.bind_eq_some_iff.mp hw
      exact ⟨(name, o), (byName_perm _).mem_iff.mpr ((override?_eq_some_iff distinct).mp hfound),
        Override.mem_broken.mpr ⟨w, hw, hrule⟩⟩
  rw [broken, List.mem_append, List.mem_append, hoverrides, Window.mem_broken]
  cases rule with
  | level => simp [Rule.Broken, LogSettings.levels, Window.mem_broken]
  | width c => cases c <;> simp [Rule.Broken, Window.mem_broken, ownWindow?]
  | buckets c => cases c <;> simp [Rule.Broken, Window.mem_broken, ownWindow?]

/-- **The order of the rules that are listed** is strictly increasing. -/
theorem pairwise_broken (distinct : s.Distinct) : s.broken.Pairwise Rule.Before := by
  have hrank : ∀ rule ∈ (byName s.overrides).flatMap (fun e => e.2.broken e.1), rule.rank.1 = 1 := by
    intro rule hrule
    obtain ⟨e, -, hrule⟩ := List.mem_flatMap.mp hrule
    exact (Override.rank_of_broken hrule).1
  have hoverrides : ((byName s.overrides).flatMap fun e => e.2.broken e.1).Pairwise Rule.Before := by
    refine List.pairwise_flatMap.mpr ⟨fun e _ => Override.pairwise_broken e.1 e.2, ?_⟩
    refine (pairwise_bytes_byName distinct).imp fun {a b} hab rule hrule rule' hrule' => ?_
    obtain ⟨hpart, hbytes⟩ := Override.rank_of_broken hrule
    obtain ⟨hpart', hbytes'⟩ := Override.rank_of_broken hrule'
    refine Prod.lex_def.mpr (.inr ⟨hpart.trans hpart'.symm, Prod.lex_def.mpr (.inl ?_)⟩)
    rwa [hbytes, hbytes']
  have hlevel : ∀ rule ∈ (if s.logging.level.toLower ∈ LogSettings.levels then [] else [Rule.level]),
      rule = .level := by
    intro rule hrule
    split at hrule
    · cases hrule
    · exact List.mem_singleton.mp hrule
  rw [broken, List.pairwise_append, List.pairwise_append]
  refine ⟨⟨Window.pairwise_broken .., hoverrides, ?_⟩, ?_, ?_⟩
  · intro rule hrule rule' hrule'
    exact Window.before_of_common hrule (by rw [hrank rule' hrule']; exact Nat.one_ne_zero)
  · split <;> simp
  · intro rule hrule rule' hrule'
    rw [hlevel rule' hrule']
    rcases List.mem_append.mp hrule with hrule | hrule
    · exact Window.before_of_common hrule (by decide)
    · exact Prod.lex_def.mpr (.inl (by rw [hrank rule hrule]; decide))

/-- Settings without a broken rule have no problem. -/
theorem valid_iff (distinct : s.Distinct) : s.Valid ↔ ∀ rule : Rule, ¬ rule.Broken s := by
  rw [Valid, problems_eq_map, List.map_eq_nil_iff, List.eq_nil_iff_forall_not_mem]
  exact forall_congr' fun rule => not_congr (mem_broken distinct)

/-- No rule is broken if all windows can be counted in and the log level is known. -/
theorem forall_not_broken_iff : (∀ rule : Rule, ¬ rule.Broken s) ↔
    (s.window.bucketMs ≠ 0 ∧ s.window.buckets ≠ 0) ∧
    (∀ name o w, s.override? name = some o → o.window = some w → w.bucketMs ≠ 0 ∧ w.buckets ≠ 0) ∧
    s.logging.level.toLower ∈ ["trace", "debug", "info", "warn", "error"] := by
  constructor
  · intro h
    refine ⟨⟨fun hw => h (.width none) ⟨_, rfl, hw⟩, fun hw => h (.buckets none) ⟨_, rfl, hw⟩⟩, ?_, ?_⟩
    · intro name o w ho hw
      have hown : s.ownWindow? (some name) = some w := Option.bind_eq_some_iff.mpr ⟨o, ho, hw⟩
      exact ⟨fun hw => h (.width (some name)) ⟨w, hown, hw⟩, fun hw => h (.buckets (some name)) ⟨w, hown, hw⟩⟩
    · exact not_not.mp (h .level)
  · rintro ⟨hcommon, hoverrides, hlevel⟩
    have hown : ∀ c w, s.ownWindow? c = some w → w.bucketMs ≠ 0 ∧ w.buckets ≠ 0 := by
      intro c w hw
      cases c with
      | none => exact Option.some.inj hw ▸ hcommon
      | some name =>
        obtain ⟨o, ho, hw⟩ := Option.bind_eq_some_iff.mp hw
        exact hoverrides name o w ho hw
    intro rule
    cases rule with
    | width c => exact fun ⟨w, hw, hzero⟩ => (hown c w hw).1 hzero
    | buckets c => exact fun ⟨w, hw, hzero⟩ => (hown c w hw).2 hzero
    | level => exact fun hunknown => hunknown hlevel

/-- **Settings are refused for exactly what is wrong with them.** They are accepted if and only if the common window and
the window of every override that has one have a width and a bucket, and the log level is known in any case of letters.
Otherwise they are refused with a list of problems: one for each broken rule, at the place that the rule is about, all of
them different, and in the order of the rules. The order in which the overrides are given does not matter. -/
theorem check_exact (distinct : s.Distinct) :
    (s.check = .ok s ↔
      (s.window.bucketMs ≠ 0 ∧ s.window.buckets ≠ 0) ∧
      (∀ name o w, s.override? name = some o → o.window = some w → w.bucketMs ≠ 0 ∧ w.buckets ≠ 0) ∧
      s.logging.level.toLower ∈ ["trace", "debug", "info", "warn", "error"]) ∧
    (s.check ≠ .ok s → s.check = .error (.invalid s.problems)) ∧
    (∃ rules : List Rule, s.problems = rules.map (Rule.problem s) ∧ rules.Pairwise Rule.Before ∧
      ∀ rule, rule ∈ rules ↔ rule.Broken s) ∧
    s.problems.Nodup ∧
    ∀ overrides, overrides.Perm s.overrides →
      ({ s with overrides := overrides } : Settings).problems = s.problems := by
  have hcheck : s.check = .ok s ↔ s.Valid := by
    constructor
    · exact fun h => (eq_of_check h).2
    · exact check_of_valid
  refine ⟨hcheck.trans ((valid_iff distinct).trans forall_not_broken_iff), ?_, ?_, ?_, ?_⟩
  · intro hrefused
    exact check_of_not_valid fun hvalid => hrefused (hcheck.mpr hvalid)
  · exact ⟨s.broken, problems_eq_map s, pairwise_broken distinct, fun rule => mem_broken distinct⟩
  · rw [problems_eq_map]
    exact ((pairwise_broken distinct).imp Rule.Before.ne).map _ fun a b hab hproblem =>
      hab (Rule.problem_injective hproblem)
  · intro overrides hperm
    rw [problems, problems, byName_congr distinct hperm]

/-- Overrides that are not listed by name, one with a name that looks like a place and one without a window. -/
theorem check_exact_listed :
    let s : Settings :=
      { window := { bucketMs := 1000, buckets := 0 }
        overrides := [("b", { window := some { bucketMs := 0, buckets := 3 } }),
          ("a.rolling", { window := some { bucketMs := 0, buckets := 0 } }), ("b.x", {})]
        logging := { level := "LOUD" } }
    s.Distinct ∧ s.check = .error (.invalid [.noBuckets "rolling", .zeroWidth "circuits.a.rolling.rolling",
      .noBuckets "circuits.a.rolling.rolling", .zeroWidth "circuits.b.rolling", .unknownLevel "LOUD"]) := by
  intro s
  have distinct : s.Distinct := by decide +kernel
  obtain ⟨haccepted, hrefused, -, -, horder⟩ := check_exact distinct
  let sorted : List (String × Override) := [("a.rolling", { window := some { bucketMs := 0, buckets := 0 } }),
    ("b", { window := some { bucketMs := 0, buckets := 3 } }), ("b.x", {})]
  have hsorted : byName sorted = sorted := List.mergeSort_of_pairwise (by decide +kernel)
  have hproblems : s.problems = [.noBuckets "rolling", .zeroWidth "circuits.a.rolling.rolling",
      .noBuckets "circuits.a.rolling.rolling", .zeroWidth "circuits.b.rolling", .unknownLevel "LOUD"] := by
    rw [← horder sorted (List.Perm.swap ..), problems, hsorted]
    decide +kernel
  have hbad : s.check ≠ .ok s := fun h => (haccepted.mp h).1.2 rfl
  exact ⟨distinct, hproblems ▸ hrefused hbad⟩

end Settings
end CallGuard
