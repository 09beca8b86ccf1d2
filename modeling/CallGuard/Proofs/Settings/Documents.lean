import CallGuard.Proofs.Settings.Schema
import CallGuard.Proofs.Toml.Keys

/-!
# Settings from trees

What counts of a tree is what its known values are: the content of a number, a truth value or a text of the right type,
and of anything else only whether its type is right (`Schema.shown`). Two trees of which the same counts
(`Schema.Same`) give the same settings, up to the order of the overrides (`Settings.determined`).

Trees are alike (`Schema.Alike`) if unknown entries come and go and entries change places, at any depth of the known
values; then the same counts of them (`Schema.Alike.same`). The tree of a document has no key twice, so that it is tidy if
the tables of the settings are written as tables in it (`Schema.Plain.tidy`).

**Main statement** (`Settings.ofValue_exact`): a tidy tree is malformed exactly if some known value in it has a wrong
type or is out of range; else it is answered as the settings are that it gives, and alike trees are answered alike.
-/

namespace CallGuard

namespace Schema

variable {β : Type} {k k' : Schema} {v v' w : Toml.Value} {key : String}

/-! ## What counts of a tree -/

/-- What counts of a value. -/
def shown (k : Schema) (v : Toml.Value) : Option Toml.Value :=
  if k.fits v = true then some (if k.isTable = true then .table [] else v) else none

/-- The same counts of two trees. -/
def Same (k : Schema) (v v' : Toml.Value) : Prop :=
  ∀ way k', k.at? way = some k' → (v.at? way).map k'.shown = (v'.at? way).map k'.shown

theorem Same.symm (h : k.Same v v') : k.Same v' v := fun way k' hk => (h way k' hk).symm

theorem fits_of_shown (h : k.shown v = k.shown v') (hv : k.fits v = true) : k.fits v' = true := by
  unfold shown at h
  rw [if_pos hv] at h
  by_contra hv'
  rw [if_neg hv'] at h
  cases h

theorem eq_of_shown (hk : k.isTable = false) (h : k.shown v = k.shown v') (hv : k.fits v = true) : v = v' := by
  have hv' := fits_of_shown h hv
  simpa [shown, hk, hv, hv'] using h

theorem Same.top (h : k.Same v v') : k.shown v = k.shown v' := Option.some.inj (h [] k rfl)

theorem Same.entry (h : k.Same v v') (hk : k.sub? key = some k') (hw : v.lookup? key = some w) :
    ∃ w', v'.lookup? key = some w' ∧ k'.Same w w' := by
  have hway : ∀ way k'', k'.at? way = some k'' →
      (w.at? way).map k''.shown = ((v'.lookup? key).bind (·.at? way)).map k''.shown := by
    intro way k'' hk'
    have hsame := h (key :: way) k'' (by rw [at?, hk]; exact hk')
    simpa [Toml.Value.at?, hw] using hsame
  cases hw' : v'.lookup? key with
  | none =>
    have hsame := hway [] k' rfl
    rw [hw'] at hsame
    cases hsame
  | some w' =>
    refine ⟨w', rfl, fun way k'' hk' => ?_⟩
    have hsame := hway way k'' hk'
    rwa [hw'] at hsame

theorem Same.entry_none (h : k.Same v v') (hk : k.sub? key = some k') (hv : v.lookup? key = none) :
    v'.lookup? key = none := by
  cases hw' : v'.lookup? key with
  | none => rfl
  | some w' =>
    obtain ⟨w, hw, -⟩ := h.symm.entry hk hw'
    cases hv.symm.trans hw

theorem Same.sound (h : k.Same v v') (hsound : k.Sound v) : k.Sound v' := by
  intro way k' w' hk hw'
  have hsame := h way k' hk
  rw [hw'] at hsame
  obtain ⟨w, hw, hshown⟩ := Option.map_eq_some_iff.mp hsame
  exact fits_of_shown hshown (hsound way k' w hk hw)

/-! ## Alike trees -/

/-- Trees that differ in unknown entries and in the order of entries. -/
inductive Alike : Schema → Toml.Value → Toml.Value → Prop
  | refl (k : Schema) (v : Toml.Value) : Alike k v v
  | symm {k : Schema} {v v' : Toml.Value} : Alike k v v' → Alike k v' v
  | trans {k : Schema} {v v' v'' : Toml.Value} : Alike k v v' → Alike k v' v'' → Alike k v v''
  /-- The entries of a table are written in another order. -/
  | reorder {k : Schema} {entries entries' : List (String × Toml.Value)} : (entries.map Prod.fst).Nodup →
      entries.Perm entries' → Alike k (.table entries) (.table entries')
  /-- An entry is added whose key is unknown. -/
  | unknown {k : Schema} {key : String} (before after : List (String × Toml.Value)) (w : Toml.Value) :
      k.sub? key = none → Alike k (.table (before ++ after)) (.table (before ++ (key, w) :: after))
  /-- An entry whose key is known is changed inside. -/
  | inside {k k' : Schema} {key : String} {w w' : Toml.Value} (before after : List (String × Toml.Value)) :
      k.sub? key = some k' → Alike k' w w' →
      Alike k (.table (before ++ (key, w) :: after)) (.table (before ++ (key, w') :: after))

theorem shown_table (k : Schema) (entries entries' : List (String × Toml.Value)) :
    k.shown (.table entries) = k.shown (.table entries') := by
  cases k <;> rfl

/-- The same counts of tables that show the same under every known key. -/
theorem same_of_entries {entries entries' : List (String × Toml.Value)}
    (h : ∀ key k', k.sub? key = some k' → ∀ way k'', k'.at? way = some k'' →
      ((entries.lookup key).bind (·.at? way)).map k''.shown = ((entries'.lookup key).bind (·.at? way)).map k''.shown) :
    k.Same (.table entries) (.table entries') := by
  intro way k'' hk
  cases way with
  | nil =>
    cases hk
    exact congrArg some (shown_table k entries entries')
  | cons key way =>
    obtain ⟨k', hk', hk⟩ := Option.bind_eq_some_iff.mp hk
    exact h key k' hk' way k'' hk

theorem lookup_perm {entries entries' : List (String × Toml.Value)} (distinct : (entries.map Prod.fst).Nodup)
    (h : entries.Perm entries') (key : String) : entries.lookup key = entries'.lookup key := by
  have distinct' : (entries'.map Prod.fst).Nodup := (h.map Prod.fst).nodup_iff.mp distinct
  ext w
  rw [Settings.lookup_eq_some_iff_mem distinct, Settings.lookup_eq_some_iff_mem distinct', h.mem_iff]

/-- **The same counts of alike trees.** -/
theorem Alike.same (h : k.Alike v v') : k.Same v v' := by
  induction h with
  | refl => exact fun _ _ _ => rfl
  | symm _ ih => exact ih.symm
  | trans _ _ ih ih' => exact fun way k' hk => (ih way k' hk).trans (ih' way k' hk)
  | reorder distinct hperm =>
    refine same_of_entries fun key _ _ _ _ _ => ?_
    rw [lookup_perm distinct hperm]
  | @unknown k key before after w hunknown =>
    refine same_of_entries fun key' k' hknown way k'' _ => ?_
    have hne : key' ≠ key := by
      rintro rfl
      cases hunknown.symm.trans hknown
    rw [List.lookup_append, List.lookup_append, List.lookup_cons, beq_false_of_ne hne]
  | @inside k k₁ key w w' before after hk _ ih =>
    refine same_of_entries fun key' k' hknown way k'' hway => ?_
    rw [List.lookup_append, List.lookup_append, List.lookup_cons, List.lookup_cons]
    by_cases hkey : key' = key
    · subst hkey
      cases hk.symm.trans hknown
      cases before.lookup key' with
      | some _ => rfl
      | none => simpa using ih way k'' hway
    · rw [beq_false_of_ne hkey]

/-! ## The trees of documents -/

/-- No table of the settings is written as an array or a moment. -/
def Plain : Schema → Toml.Value → Prop := Everywhere fun k v => k.isTable = true → v.isDisguise = false

theorem keyed_at? (h : v.Keyed) {way : List String} (hw : v.at? way = some w) : w.Keyed := by
  induction way generalizing v with
  | nil =>
    cases hw
    exact h
  | cons key way ih =>
    obtain ⟨v', hv', hrest⟩ := Option.bind_eq_some_iff.mp hw
    cases h with
    | table _ hentries =>
      obtain ⟨before, after, rfl, -⟩ := List.lookup_eq_some_iff.mp hv'
      exact ih (hentries (key, v') (List.mem_append_right _ List.mem_cons_self)) hrest
    | _ => cases hv'

/-- A tree without any key twice is tidy, if the tables of the settings are written as tables. -/
theorem Plain.tidy (h : k.Plain v) (hkeyed : v.Keyed) : k.Tidy v := by
  intro way k' w hk hw htable
  refine ⟨h way k' w hk hw htable, ?_⟩
  cases keyed_at? hkeyed hw with
  | table hdistinct _ => exact hdistinct
  | _ => trivial

/-! ## The same settings -/

/-- Sound trees of which the same counts give what is the same in the sense of `R`. -/
def Determines (k : Schema) (Given : β → Toml.Value → Prop) (R : β → β → Prop) : Prop :=
  ∀ v v' x x', k.Same v v' → k.Sound v → Given x v → Given x' v' → R x x'

variable {Given : β → Toml.Value → Prop} {R : β → β → Prop} {x x' dflt : β}

theorem Determines.field (h : k'.Determines Given R) (hk : k.sub? key = some k') (hsame : k.Same v v')
    (hsound : k.Sound v) (hrefl : R dflt dflt) (hx : v.Field key (Given x) (x = dflt))
    (hx' : v'.Field key (Given x') (x' = dflt)) : R x x' := by
  cases hv : v.lookup? key with
  | none =>
    obtain rfl := (Toml.Value.field_of_none hv).mp hx
    obtain rfl := (Toml.Value.field_of_none (hsame.entry_none hk hv)).mp hx'
    exact hrefl
  | some w =>
    obtain ⟨w', hv', hsame'⟩ := hsame.entry hk hv
    exact h w w' x x' hsame' (hsound.entry hk hv) ((Toml.Value.field_of_some hv).mp hx)
      ((Toml.Value.field_of_some hv').mp hx')

theorem determines_leaf {write : β → Toml.Value} (hk : k.isTable = false)
    (hwrite : ∀ x x', write x = write x' → x = x') : k.Determines (fun x v => v = write x) Eq := by
  rintro v v' x x' hsame hsound rfl rfl
  exact hwrite x x' (eq_of_shown hk hsame.top hsound.top)

theorem Determines.optional (h : k.Determines Given Eq) :
    k.Determines (fun x? v => ∃ x, x? = some x ∧ Given x v) Eq := by
  rintro v v' _ _ hsame hsound ⟨x, rfl, hx⟩ ⟨x', rfl, hx'⟩
  exact congrArg some (h v v' x x' hsame hsound hx hx')

theorem determines_width : width.Determines (fun (n : UInt64) v => v = .integer n.toNat) Eq :=
  determines_leaf rfl fun _ _ h => UInt64.toNat_inj.mp (Int.ofNat.inj (Toml.Value.integer.inj h))

theorem determines_count : count.Determines (fun (n : UInt32) v => v = .integer n.toNat) Eq :=
  determines_leaf rfl fun _ _ h => UInt32.toNat_inj.mp (Int.ofNat.inj (Toml.Value.integer.inj h))

theorem determines_truth : truth.Determines (fun (b : Bool) v => v = .boolean b) Eq :=
  determines_leaf rfl fun _ _ h => Toml.Value.boolean.inj h

theorem determines_text : text.Determines (fun (t : String) v => v = .text t) Eq :=
  determines_leaf rfl fun _ _ h => Toml.Value.text.inj h

end Schema

section Records

open Schema

theorem Window.determined : window.Determines Window.GivenBy Eq := by
  rintro v v' ⟨ms, n⟩ ⟨ms', n'⟩ hsame hsound hw hw'
  obtain rfl : ms = ms' := determines_width.field rfl hsame hsound rfl hw.bucketMs hw'.bucketMs
  obtain rfl : n = n' := determines_count.field rfl hsame hsound rfl hw.buckets hw'.buckets
  rfl

theorem LogSettings.determined : logging.Determines LogSettings.GivenBy Eq := by
  rintro v v' ⟨level, target⟩ ⟨level', target'⟩ hsame hsound hl hl'
  obtain rfl : level = level' := determines_text.field rfl hsame hsound rfl hl.level hl'.level
  obtain rfl : target = target' := determines_truth.field rfl hsame hsound rfl hl.withTarget hl'.withTarget
  rfl

theorem Override.determined : override.Determines Override.GivenBy Eq := by
  rintro v v' ⟨window, track⟩ ⟨window', track'⟩ hsame hsound ho ho'
  obtain rfl : window = window' := Window.determined.optional.field rfl hsame hsound rfl ho.window ho'.window
  obtain rfl : track = track' :=
    determines_truth.optional.field rfl hsame hsound rfl ho.trackFallback ho'.trackFallback
  rfl

/-- The overrides that trees of which the same counts give are the same, in some order. -/
theorem Override.determined_all : overrides.Determines Override.AllGivenBy List.Perm := by
  intro v v' os os' hsame hsound hos hos'
  have hlookup : ∀ name, os.lookup name = os'.lookup name := fun name =>
    Override.determined.optional.field rfl hsame hsound rfl (hos.entry name) (hos'.entry name)
  refine (List.perm_ext_iff_of_nodup hos.distinct.of_map hos'.distinct.of_map).mpr fun e => ?_
  rw [← Settings.lookup_eq_some_iff_mem hos.distinct, ← Settings.lookup_eq_some_iff_mem hos'.distinct, hlookup]

/-- The circuits that have overrides in settings that a tree gives are different. -/
theorem Settings.GivenBy.distinct {s : Settings} {v : Toml.Value} (h : s.GivenBy v) : s.Distinct := by
  have hoverrides := h.overrides
  cases hv : v.lookup? "circuits" with
  | none =>
    rw [Distinct, (Toml.Value.field_of_none hv).mp hoverrides]
    exact List.nodup_nil
  | some c => exact ((Toml.Value.field_of_some hv).mp hoverrides).distinct

/-- **The same settings** come of trees of which the same counts, up to the order of the overrides. -/
theorem Settings.determined : settings.Determines Settings.GivenBy Settings.Same := by
  rintro v v' s s' hsame hsound hs hs'
  have hwindow : s.window = s'.window :=
    Window.determined.field rfl hsame hsound rfl hs.window hs'.window
  have htrack : s.trackFallback = s'.trackFallback :=
    determines_truth.field rfl hsame hsound rfl hs.trackFallback hs'.trackFallback
  have hlogging : s.logging = s'.logging :=
    LogSettings.determined.field rfl hsame hsound rfl hs.logging hs'.logging
  have hoverrides : s.overrides.Perm s'.overrides :=
    Override.determined_all.field rfl hsame hsound (List.Perm.refl _) hs.overrides hs'.overrides
  rw [Settings.Same, canonical, canonical, byName_congr hs'.distinct hoverrides, hwindow, htrack, hlogging]

end Records

namespace Settings

variable {s t : Settings} {v v' : Toml.Value}

/-- Settings that say the same have the same problems. -/
theorem Same.problems_eq (h : s.Same t) : s.problems = t.problems := by
  obtain ⟨hwindow, -, hoverrides, hlogging⟩ := Settings.mk.inj h
  rw [problems, problems, hwindow, hoverrides, hlogging]

/-- Settings that say the same are answered alike. -/
theorem Same.check_eq (h : s.Same t) : s.check.map canonical = t.check.map canonical := by
  unfold check
  rw [h.problems_eq]
  split
  · exact congrArg Except.ok h
  · rfl

/-! ## What is answered -/

theorem ofValue_of_decode (h : decode v = some s) : ofValue v = s.check := by
  rw [ofValue, h]

theorem ofValue_of_not_decode (h : decode v = none) : ofValue v = .error .malformed := by
  rw [ofValue, h]

theorem check_ne_malformed (s : Settings) : s.check ≠ .error .malformed := by
  unfold check
  split <;> simp

/-- A tidy tree is malformed exactly if it is not sound. -/
theorem ofValue_eq_malformed_iff (tidy : Schema.settings.Tidy v) :
    ofValue v = .error .malformed ↔ ¬ Schema.settings.Sound v := by
  constructor
  · intro h hsound
    obtain ⟨s, hs⟩ := decodedBy.exists_decode tidy hsound
    exact check_ne_malformed s ((ofValue_of_decode hs).symm.trans h)
  · intro hunsound
    cases hs : decode v with
    | none => exact ofValue_of_not_decode hs
    | some s => exact absurd (decodedBy.given tidy hs).1 hunsound

/-- The override for circuits of a name is what is given for that name. -/
theorem GivenBy.override? (h : s.GivenBy v) (name : String) :
    (v.at? ["circuits", name] = none ∧ s.override? name = none) ∨
      ∃ w o, v.at? ["circuits", name] = some w ∧ s.override? name = some o ∧ o.GivenBy w := by
  have hoverrides := h.overrides
  cases hv : v.lookup? "circuits" with
  | none =>
    left
    simp [Toml.Value.at?, hv, Settings.override?, (Toml.Value.field_of_none hv).mp hoverrides]
  | some c =>
    have hentry := ((Toml.Value.field_of_some hv).mp hoverrides).entry name
    cases hc : c.lookup? name with
    | none =>
      left
      simpa [Toml.Value.at?, hv, hc, Settings.override?] using (Toml.Value.field_of_none hc).mp hentry
    | some w =>
      right
      obtain ⟨o, ho, hgiven⟩ := (Toml.Value.field_of_some hc).mp hentry
      exact ⟨w, o, by simp [Toml.Value.at?, hv, hc], ho, hgiven⟩

/-- Circuits of a name have the common window, unless a window is given for the name; then they have that one, with the
defaults in the place of fields that are not given. -/
theorem GivenBy.windowFor (h : s.GivenBy v) (name : String) :
    (v.at? ["circuits", name, "rolling"] = none → s.windowFor name = s.window) ∧
      ∀ r, v.at? ["circuits", name, "rolling"] = some r → (s.windowFor name).GivenBy r := by
  have hway : v.at? ["circuits", name, "rolling"] = (v.at? ["circuits", name]).bind (·.lookup? "rolling") := by
    simp [Toml.Value.at?, Option.bind_assoc]
  rw [hway, Settings.windowFor]
  rcases h.override? name with ⟨hv, ho⟩ | ⟨w, o, hv, ho, hgiven⟩
  · rw [hv, ho]
    exact ⟨fun _ => rfl, fun _ hr => by cases hr⟩
  · rw [hv, ho]
    have hwindow := hgiven.window
    constructor
    · intro hr
      simp [(Toml.Value.field_of_none hr).mp hwindow]
    · intro r hr
      obtain ⟨window, hown, hgiven⟩ := (Toml.Value.field_of_some hr).mp hwindow
      simpa [hown] using hgiven

/-- **Settings are decoded from trees as the schema says.** Let no table of the settings be written as an array or a
moment, and no key stand twice in one. Then the tree is malformed exactly if some known value in it, at any depth, has a
wrong type or is out of range. If none is, the settings have the values that are given, and the defaults for the others;
circuits without a window of their own have the common one, and in a window of their own the fields that are missing are
the defaults; and what is answered is what the check of these settings answers. Alike trees are answered alike, and
settings that are accepted pass the check. A text is answered as its tree, in which no key stands twice. -/
theorem ofValue_exact (tidy : Schema.settings.Tidy v) :
    (ofValue v = .error .malformed ↔
      ∃ way k w, Schema.settings.at? way = some k ∧ v.at? way = some w ∧ k.fits w = false) ∧
    ((∀ way k w, Schema.settings.at? way = some k → v.at? way = some w → k.fits w = true) →
      ∃ s : Settings, s.GivenBy v ∧ ofValue v = s.check ∧
        ∀ name, (v.at? ["circuits", name, "rolling"] = none → s.windowFor name = s.window) ∧
          ∀ r, v.at? ["circuits", name, "rolling"] = some r → (s.windowFor name).GivenBy r) ∧
    (∀ v', Schema.settings.Tidy v' → Schema.settings.Alike v v' →
      (ofValue v').map canonical = (ofValue v).map canonical) ∧
    (∀ s, ofValue v = .ok s → s.check = .ok s) ∧
    ∀ text v', Toml.Value.ofDocument? text = some v' →
      read text = ofValue v' ∧ (Schema.settings.Plain v' → Schema.settings.Tidy v') := by
  refine ⟨?_, ?_, ?_, ?_, ?_⟩
  · rw [ofValue_eq_malformed_iff tidy, Schema.Sound, Schema.Everywhere]
    simp
  · intro hsound
    obtain ⟨s, hs⟩ := decodedBy.exists_decode tidy hsound
    have hgiven := (decodedBy.given tidy hs).2
    exact ⟨s, hgiven, ofValue_of_decode hs, hgiven.windowFor⟩
  · intro v' tidy' halike
    have hsame := halike.same
    by_cases hsound : Schema.settings.Sound v
    · obtain ⟨s, hs⟩ := decodedBy.exists_decode tidy hsound
      obtain ⟨s', hs'⟩ := decodedBy.exists_decode tidy' (hsame.sound hsound)
      rw [ofValue_of_decode hs, ofValue_of_decode hs']
      exact (determined v v' s s' hsame hsound (decodedBy.given tidy hs).2 (decodedBy.given tidy' hs').2).check_eq.symm
    · have hunsound : ¬ Schema.settings.Sound v' := fun h => hsound (hsame.symm.sound h)
      rw [(ofValue_eq_malformed_iff tidy).mpr hsound, (ofValue_eq_malformed_iff tidy').mpr hunsound]
  · intro s hs
    exact check_of_valid (valid_of_ofValue hs)
  · intro text v' htext
    refine ⟨?_, fun hplain => hplain.tidy (Toml.Value.keyed_ofDocument? htext)⟩
    rw [read, htext]

/-! ### Two ways to write the same -/

namespace Twice

/-- The window of an override, in which one field is missing. -/
def window (more : List (String × Toml.Value)) : Toml.Value := .table (("num_buckets", .integer 3) :: more)

/-- An override for circuits named `db`, with that window. -/
def circuits (more : List (String × Toml.Value)) : Toml.Value := .table [("db", .table [("rolling", window more)])]

/-- The common window, in which the other field is missing. -/
def common : Toml.Value := .table [("bucket_duration_ms", .integer 500)]

/-- Settings, with unknown entries at two depths. -/
def one : Toml.Value :=
  .table [("owner", .text "ops"), ("rolling", common), ("circuits", circuits [("color", .text "red")])]

/-- The same settings without the unknown entries, in another order. -/
def other : Toml.Value := .table [("circuits", circuits []), ("rolling", common)]

theorem tidy_common : Schema.window.Tidy common := by
  refine Schema.tidy_table (List.nodup_singleton _) (List.forall_mem_singleton.mpr fun k hk => ?_)
  cases hk
  exact Schema.tidy_scalar rfl fun _ => rfl

theorem tidy_circuits {more : List (String × Toml.Value)} (h : Schema.window.Tidy (window more)) :
    Schema.overrides.Tidy (circuits more) := by
  refine Schema.tidy_table (List.nodup_singleton _) (List.forall_mem_singleton.mpr fun k hk => ?_)
  cases hk
  refine Schema.tidy_table (List.nodup_singleton _) (List.forall_mem_singleton.mpr fun k hk => ?_)
  cases hk
  exact h

theorem tidy_one : Schema.settings.Tidy one := by
  have hwindow : Schema.window.Tidy (window [("color", .text "red")]) := by
    refine Schema.tidy_table (by decide +kernel) (List.forall_mem_cons.mpr ⟨fun k hk => ?_, ?_⟩)
    · cases hk
      exact Schema.tidy_scalar rfl fun _ => rfl
    · exact List.forall_mem_singleton.mpr fun k hk => by cases hk
  refine Schema.tidy_table (by decide +kernel) (List.forall_mem_cons.mpr ⟨fun k hk => ?_, ?_⟩)
  · cases hk
  refine List.forall_mem_cons.mpr ⟨fun k hk => ?_, List.forall_mem_singleton.mpr fun k hk => ?_⟩
  · cases hk
    exact tidy_common
  · cases hk
    exact tidy_circuits hwindow

theorem tidy_other : Schema.settings.Tidy other := by
  have hwindow : Schema.window.Tidy (window []) := by
    refine Schema.tidy_table (List.nodup_singleton _) (List.forall_mem_singleton.mpr fun k hk => ?_)
    cases hk
    exact Schema.tidy_scalar rfl fun _ => rfl
  refine Schema.tidy_table (by decide +kernel) (List.forall_mem_cons.mpr ⟨fun k hk => ?_, ?_⟩)
  · cases hk
    exact tidy_circuits hwindow
  · refine List.forall_mem_singleton.mpr fun k hk => ?_
    cases hk
    exact tidy_common

/-- The unknown entries go, the one inside first, and the known ones change places. -/
theorem alike : Schema.settings.Alike one other := by
  have hwindow : Schema.window.Alike (window [("color", .text "red")]) (window []) :=
    .symm (.unknown [("num_buckets", .integer 3)] [] (.text "red") rfl)
  have hcircuits : Schema.overrides.Alike (circuits [("color", .text "red")]) (circuits []) :=
    .inside [] [] rfl (.inside [] [] rfl hwindow)
  have hinside : Schema.settings.Alike one
      (.table [("owner", .text "ops"), ("rolling", common), ("circuits", circuits [])]) :=
    .inside [("owner", .text "ops"), ("rolling", common)] [] rfl hcircuits
  have howner : Schema.settings.Alike (.table [("owner", .text "ops"), ("rolling", common), ("circuits", circuits [])])
      (.table [("rolling", common), ("circuits", circuits [])]) :=
    .symm (.unknown [] [("rolling", common), ("circuits", circuits [])] (.text "ops") rfl)
  exact hinside.trans (howner.trans (.reorder (by decide +kernel) (List.Perm.swap ..)))

end Twice

/-- Either way the window of the circuits named `db` has the default width, not the common one, and other circuits have
the common window. -/
theorem ofValue_exact_twice : Schema.settings.Tidy Twice.one ∧ Schema.settings.Tidy Twice.other ∧
    (∃ s : Settings, ofValue Twice.one = s.check ∧ s.windowFor "db" = ⟨1000, 3⟩ ∧ s.windowFor "web" = ⟨500, 10⟩) ∧
    (ofValue Twice.other).map canonical = (ofValue Twice.one).map canonical := by
  obtain ⟨-, hdecoded, halike, -⟩ := ofValue_exact Twice.tidy_one
  refine ⟨Twice.tidy_one, Twice.tidy_other, ?_, halike _ Twice.tidy_other Twice.alike⟩
  have hsome : Settings.decode Twice.one =
      some { window := ⟨500, 10⟩, overrides := [("db", { window := some ⟨1000, 3⟩ })] } := by decide +kernel
  obtain ⟨s, hgiven, hanswer, hwindow⟩ := hdecoded (decodedBy.given Twice.tidy_one hsome).1
  refine ⟨s, hanswer, ?_, ?_⟩
  · have hdb := (hwindow "db").2 (Twice.window [("color", .text "red")]) rfl
    have hgivenN : (3 : Int) = (s.windowFor "db").buckets.toNat := Toml.Value.integer.inj hdb.buckets
    have hn : (s.windowFor "db").buckets = 3 := UInt32.toNat_inj.mp (Int.ofNat.inj hgivenN.symm)
    exact congrArg₂ Window.mk hdb.bucketMs hn
  · rw [(hwindow "web").1 rfl]
    have hcommon : s.window.GivenBy Twice.common := hgiven.window
    have hgivenMs : (500 : Int) = s.window.bucketMs.toNat := Toml.Value.integer.inj hcommon.bucketMs
    have hms : s.window.bucketMs = 500 := UInt64.toNat_inj.mp (Int.ofNat.inj hgivenMs.symm)
    exact congrArg₂ Window.mk hms hcommon.buckets

end Settings
end CallGuard
