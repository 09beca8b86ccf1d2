import CallGuard.Proofs.Settings.Rules

/-!
# What the values of a document stand for

A value of a document stands for settings, for a part of them, or for a number, a truth value or a text in them
(`Schema`); the keys of a table say what its entries stand for, and all other keys are unknown (`Schema.sub?`). What holds
of a value and of all known values inside it holds `Schema.Everywhere`. Two such properties matter:

* a tree is `Schema.Sound` if every known value has the type and the range of what it stands for;
* it is `Schema.Tidy` if no table of the settings is written as an array or a moment, and none has a key twice.

What a part of the settings has from a tree is said without the decoder: every field is the value that is given, else
its default (`Window.GivenBy`, `Override.GivenBy`, `LogSettings.GivenBy`, `Settings.GivenBy`).

**Main statement** (`Settings.decodedBy`): of the tidy trees exactly the sound ones can be decoded, and what is decoded
has what the tree gives. It is put together from the same statement for every field and every record inside
(`Schema.DecodedBy`).
-/

namespace CallGuard

/-! ## Trees -/

namespace Toml.Value

/-- The entry of a table. -/
def lookup? : Value → String → Option Value
  | .table entries, key => entries.lookup key
  | _, _ => none

/-- The value at the end of a way through tables. -/
def at? : Value → List String → Option Value
  | v, [] => some v
  | v, key :: way => (v.lookup? key).bind (at? · way)

/-- An integer from 0 to below a bound. -/
def natural? (size : Nat) : Value → Option Nat
  | .integer m => if 0 ≤ m ∧ m.toNat < size then some m.toNat else none
  | _ => none

theorem natural?_eq_some_iff {size n : Nat} {v : Value} : v.natural? size = some n ↔ v = .integer n ∧ n < size := by
  cases v with
  | integer m =>
    simp only [natural?, Option.ite_none_right_eq_some, Option.some.injEq, integer.injEq]
    omega
  | _ => simp [natural?]

theorem isSome_natural?_integer (size : Nat) (m : Int) :
    ((integer m).natural? size).isSome = decide (0 ≤ m ∧ m.toNat < size) := by
  by_cases h : 0 ≤ m ∧ m.toNat < size <;> simp [natural?, h]

/-- A value that could stand for a record, other than a table. -/
def isDisguise : Value → Bool
  | .array _ | .moment _ => true
  | _ => false

/-- No key stands twice in a table. -/
def Distinct : Value → Prop
  | .table entries => (entries.map Prod.fst).Nodup
  | _ => True

end Toml.Value

/-- What a value stands for. -/
inductive Schema
  | settings
  | window
  | overrides
  | override
  | logging
  | width
  | count
  | truth
  | text
deriving DecidableEq, Repr

namespace Schema

/-- The known keys of a record, and what their entries stand for. -/
def fields : Schema → List (String × Schema)
  | .settings => [("rolling", .window), ("track_fallback", .truth), ("circuits", .overrides), ("logging", .logging)]
  | .window => [("bucket_duration_ms", .width), ("num_buckets", .count)]
  | .override => [("rolling", .window), ("track_fallback", .truth)]
  | .logging => [("level", .text), ("with_target", .truth)]
  | _ => []

/-- What an entry of a table stands for, if its key is known. Every key of the overrides names circuits. -/
def sub? (k : Schema) (key : String) : Option Schema :=
  if k = .overrides then some .override else k.fields.lookup key

/-- What a value at the end of a way stands for, if all keys of the way are known. -/
def at? : Schema → List String → Option Schema
  | k, [] => some k
  | k, key :: way => (k.sub? key).bind (at? · way)

/-- It is written as a table. -/
def isTable : Schema → Bool
  | .settings | .window | .overrides | .override | .logging => true
  | .width | .count | .truth | .text => false

/-- The value has the type and is in the range of what it stands for: a width is an integer from 0 to `2 ^ 63 - 1`, and
a number of buckets is one from 0 to `2 ^ 32 - 1`. -/
def fits : Schema → Toml.Value → Bool
  | .width, .integer n => decide (0 ≤ n ∧ n ≤ 9223372036854775807)
  | .count, .integer n => decide (0 ≤ n ∧ n ≤ 4294967295)
  | .truth, .boolean _ | .text, .text _ => true
  | k, .table _ => k.isTable
  | _, _ => false

variable {P : Schema → Toml.Value → Prop} {k k' : Schema} {v w : Toml.Value} {key : String}

/-- It holds of a value and of all known values inside it. -/
def Everywhere (P : Schema → Toml.Value → Prop) (k : Schema) (v : Toml.Value) : Prop :=
  ∀ way k' w, k.at? way = some k' → v.at? way = some w → P k' w

/-- What holds everywhere holds at the top and everywhere in the known entries. -/
theorem everywhere_iff : Everywhere P k v ↔
    P k v ∧ ∀ key k' w, k.sub? key = some k' → v.lookup? key = some w → Everywhere P k' w := by
  constructor
  · intro h
    refine ⟨h [] k v rfl rfl, fun key k' w hk hv way k'' w' hk' hw => h (key :: way) k'' w' ?_ ?_⟩
    · rw [at?, hk]
      exact hk'
    · rw [Toml.Value.at?, hv]
      exact hw
  · rintro ⟨htop, hentries⟩ way k' w hk hv
    cases way with
    | nil =>
      cases hk
      cases hv
      exact htop
    | cons key way =>
      obtain ⟨k₁, hk₁, hk⟩ := Option.bind_eq_some_iff.mp hk
      obtain ⟨w₁, hw₁, hw⟩ := Option.bind_eq_some_iff.mp hv
      exact hentries key k₁ w₁ hk₁ hw₁ way k' w hk hw

theorem Everywhere.top (h : Everywhere P k v) : P k v := (everywhere_iff.mp h).1

theorem Everywhere.entry (h : Everywhere P k v) (hk : k.sub? key = some k') (hv : v.lookup? key = some w) :
    Everywhere P k' w := (everywhere_iff.mp h).2 key k' w hk hv

/-- Every known value has the type and is in the range of what it stands for. -/
def Sound : Schema → Toml.Value → Prop := Everywhere fun k v => k.fits v = true

/-- The tables of the settings are written as tables, and have no key twice. -/
def Tidy : Schema → Toml.Value → Prop := Everywhere fun k v => k.isTable = true → v.isDisguise = false ∧ v.Distinct

theorem tidy_scalar (hk : k.isTable = false) (hv : ∀ key, v.lookup? key = none) : k.Tidy v := by
  refine everywhere_iff.mpr ⟨fun h => ?_, fun key k' w _ hw => ?_⟩
  · cases hk.symm.trans h
  · cases (hv key).symm.trans hw

theorem tidy_table {entries : List (String × Toml.Value)} (distinct : (entries.map Prod.fst).Nodup)
    (h : ∀ e ∈ entries, ∀ k', k.sub? e.1 = some k' → k'.Tidy e.2) : k.Tidy (.table entries) := by
  refine everywhere_iff.mpr ⟨fun _ => ⟨rfl, distinct⟩, fun key k' w hk hw => ?_⟩
  exact h (key, w) ((Settings.lookup_eq_some_iff_mem distinct).mp hw) k' hk

/-- A record is sound if it is a table and its known fields are. -/
theorem sound_iff_fields (hk : k ≠ .overrides) : k.Sound v ↔
    k.fits v = true ∧ ∀ f ∈ k.fields, ∀ w, v.lookup? f.1 = some w → f.2.Sound w := by
  have hsub : ∀ f ∈ k.fields, k.sub? f.1 = some f.2 := by
    cases k <;> first | contradiction | decide
  rw [Sound, everywhere_iff]
  refine and_congr_right fun _ => ⟨fun h f hf w hw => h f.1 f.2 w (hsub f hf) hw, ?_⟩
  intro h key k' w hkey hw
  rw [sub?, if_neg hk] at hkey
  obtain ⟨l, l', hfields, -⟩ := List.lookup_eq_some_iff.mp hkey
  exact h (key, k') (hfields ▸ List.mem_append_right _ List.mem_cons_self) w hw

end Schema

/-! ## What a tree gives -/

/-- What holds of an entry, or what holds if it is missing. -/
def Toml.Value.Field (v : Toml.Value) (key : String) (P : Toml.Value → Prop) (missing : Prop) : Prop :=
  match v.lookup? key with
  | some w => P w
  | none => missing

section Field

variable {v w : Toml.Value} {key : String} {P : Toml.Value → Prop} {missing : Prop}

theorem Toml.Value.field_of_some (h : v.lookup? key = some w) : v.Field key P missing ↔ P w := by rw [Field, h]

theorem Toml.Value.field_of_none (h : v.lookup? key = none) : v.Field key P missing ↔ missing := by rw [Field, h]

end Field

/-- The window has the fields that are given, and the defaults for the others. -/
structure Window.GivenBy (w : Window) (v : Toml.Value) : Prop where
  bucketMs : v.Field "bucket_duration_ms" (· = .integer w.bucketMs.toNat) (w.bucketMs = 1000)
  buckets : v.Field "num_buckets" (· = .integer w.buckets.toNat) (w.buckets = 10)

/-- The override has the fields that are given, and nothing for the others. -/
structure Override.GivenBy (o : Override) (v : Toml.Value) : Prop where
  window : v.Field "rolling" (fun r => ∃ w, o.window = some w ∧ w.GivenBy r) (o.window = none)
  trackFallback : v.Field "track_fallback" (fun b => ∃ x, o.trackFallback = some x ∧ b = .boolean x)
    (o.trackFallback = none)

/-- The log is written as given, and as by default in what is not. -/
structure LogSettings.GivenBy (l : LogSettings) (v : Toml.Value) : Prop where
  level : v.Field "level" (· = .text l.level) (l.level = "info")
  withTarget : v.Field "with_target" (· = .boolean l.withTarget) (l.withTarget = true)

/-- There is one override for every name that is given, and none for the others. -/
structure Override.AllGivenBy (os : List (String × Override)) (v : Toml.Value) : Prop where
  distinct : (os.map Prod.fst).Nodup
  entry (name : String) : v.Field name (fun w => ∃ o, os.lookup name = some o ∧ o.GivenBy w) (os.lookup name = none)

/-- The settings have the fields that are given, and the defaults for the others. -/
structure Settings.GivenBy (s : Settings) (v : Toml.Value) : Prop where
  window : v.Field "rolling" s.window.GivenBy (s.window = ⟨1000, 10⟩)
  trackFallback : v.Field "track_fallback" (· = .boolean s.trackFallback) (s.trackFallback = true)
  overrides : v.Field "circuits" (Override.AllGivenBy s.overrides) (s.overrides = [])
  logging : v.Field "logging" s.logging.GivenBy (s.logging = ⟨"info", true⟩)

/-! ## Decoding -/

namespace Schema

variable {β : Type} {k k' : Schema} {v w : Toml.Value} {key : String} {place : Nat}
  {decode : Toml.Value → Option β} {Given : β → Toml.Value → Prop} {x dflt : β}

/-- A decoder succeeds exactly on the sound ones of the tidy trees, and answers what the tree gives. -/
structure DecodedBy (k : Schema) (decode : Toml.Value → Option β) (Given : β → Toml.Value → Prop) : Prop where
  given {v : Toml.Value} {x : β} : k.Tidy v → decode v = some x → k.Sound v ∧ Given x v
  exists_decode {v : Toml.Value} : k.Tidy v → k.Sound v → ∃ x, decode v = some x

/-- A number, a truth value or a text has nothing inside it. -/
theorem sound_iff_fits (hk : k.isTable = false) : k.Sound v ↔ k.fits v = true := by
  have hrecord : k ≠ .overrides := by
    rintro rfl
    cases hk
  have hfields : k.fields = [] := by
    cases k <;> first | contradiction | rfl
  simp [sound_iff_fields hrecord, hfields]

/-- A decoder of numbers, truth values or texts that is the inverse of a way to write them. -/
theorem decodedBy_leaf {write : β → Toml.Value} (hk : k.isTable = false)
    (hgiven : ∀ v x, decode v = some x → k.fits v = true ∧ v = write x)
    (hexists : ∀ v, k.fits v = true → ∃ x, decode v = some x) : k.DecodedBy decode fun x v => v = write x where
  given _ hx := (hgiven _ _ hx).imp_left (sound_iff_fits hk).mpr
  exists_decode _ hsound := hexists _ ((sound_iff_fits hk).mp hsound)

/-- A decoder of the integers from 0 to below a bound. -/
theorem decodedBy_natural (size : Nat) (ofNat : Nat → β) (toNat : β → Nat) (hk : k.isTable = false)
    (hdecode : ∀ v, decode v = (v.natural? size).map ofNat) (hfits : ∀ v, k.fits v = (v.natural? size).isSome)
    (hback : ∀ n < size, toNat (ofNat n) = n) : k.DecodedBy decode fun x v => v = .integer (toNat x) := by
  refine decodedBy_leaf hk (fun v x hx => ?_) fun v hv => ?_
  · rw [hdecode] at hx
    obtain ⟨n, hn, rfl⟩ := Option.map_eq_some_iff.mp hx
    obtain ⟨rfl, hlt⟩ := Toml.Value.natural?_eq_some_iff.mp hn
    rw [hfits, hn, hback n hlt]
    exact ⟨rfl, rfl⟩
  · rw [hfits] at hv
    obtain ⟨n, hn⟩ := Option.isSome_iff_exists.mp hv
    exact ⟨ofNat n, by rw [hdecode, hn]; rfl⟩

theorem decodedBy_width : Schema.width.DecodedBy Toml.Value.asUInt64 fun n v => v = .integer n.toNat := by
  have hsize : UInt64.size / 2 = 9223372036854775808 := rfl
  refine decodedBy_natural (UInt64.size / 2) .ofNat UInt64.toNat rfl (fun v => ?_) (fun v => ?_) fun n hn => ?_
  · cases v with
    | integer m =>
      simp only [Toml.Value.asUInt64, Toml.Value.natural?]
      split <;> rfl
    | _ => rfl
  · cases v with
    | integer m =>
      rw [Toml.Value.isSome_natural?_integer, fits, decide_eq_decide]
      omega
    | _ => rfl
  · exact UInt64.toNat_ofNat_of_lt' (by omega)

theorem decodedBy_count : Schema.count.DecodedBy Toml.Value.asUInt32 fun n v => v = .integer n.toNat := by
  have hsize : UInt32.size = 4294967296 := rfl
  refine decodedBy_natural UInt32.size .ofNat UInt32.toNat rfl (fun v => ?_) (fun v => ?_) fun n hn => ?_
  · cases v with
    | integer m =>
      simp only [Toml.Value.asUInt32, Toml.Value.natural?]
      split <;> rfl
    | _ => rfl
  · cases v with
    | integer m =>
      rw [Toml.Value.isSome_natural?_integer, fits, decide_eq_decide]
      omega
    | _ => rfl
  · exact UInt32.toNat_ofNat_of_lt' hn

theorem decodedBy_truth : Schema.truth.DecodedBy Toml.Value.asBoolean fun b v => v = .boolean b := by
  refine decodedBy_leaf rfl (fun v b h => ?_) fun v hfits => ?_
  · cases v with
    | boolean c =>
      cases h
      exact ⟨rfl, rfl⟩
    | _ => cases h
  · cases v with
    | boolean c => exact ⟨c, rfl⟩
    | _ => cases hfits

theorem decodedBy_text : Schema.text.DecodedBy Toml.Value.asText fun t v => v = .text t := by
  refine decodedBy_leaf rfl (fun v t h => ?_) fun v hfits => ?_
  · cases v with
    | text u =>
      cases h
      exact ⟨rfl, rfl⟩
    | _ => cases h
  · cases v with
    | text u => exact ⟨u, rfl⟩
    | _ => cases hfits

/-! ### Records -/

theorem fieldD_eq_some_iff (hv : v.isDisguise = false) :
    v.fieldD key place decode dflt = some x ↔ v.Field key (decode · = some x) (x = dflt) := by
  have hfield : v.field? key place = v.lookup? key := by
    cases v <;> first | rfl | cases hv
  rw [Toml.Value.fieldD, hfield]
  cases hv : v.lookup? key with
  | none => exact (Option.some_inj.trans eq_comm).trans (Toml.Value.field_of_none hv).symm
  | some w => rw [Toml.Value.field_of_some hv]

/-- A field that is decoded is sound if it is there, and is what is given, else the default. -/
theorem DecodedBy.given_fieldD (h : k'.DecodedBy decode Given) (hk : k.isTable = true) (hsub : k.sub? key = some k')
    (tidy : k.Tidy v) (hx : v.fieldD key place decode dflt = some x) :
    (∀ w, v.lookup? key = some w → k'.Sound w) ∧ v.Field key (Given x) (x = dflt) := by
  have hfield := (fieldD_eq_some_iff (tidy.top hk).1).mp hx
  cases hv : v.lookup? key with
  | none =>
    rw [Toml.Value.field_of_none hv] at hfield ⊢
    exact ⟨fun _ hw => absurd hw.symm (Option.some_ne_none _), hfield⟩
  | some w =>
    rw [Toml.Value.field_of_some hv] at hfield ⊢
    obtain ⟨hsound, hgiven⟩ := h.given (tidy.entry hsub hv) hfield
    exact ⟨fun _ hw => Option.some.inj hw ▸ hsound, hgiven⟩

/-- A field can be decoded that is sound if it is there. -/
theorem DecodedBy.exists_fieldD (h : k'.DecodedBy decode Given) (hk : k.isTable = true)
    (hsub : k.sub? key = some k') (tidy : k.Tidy v) (hsound : ∀ w, v.lookup? key = some w → k'.Sound w)
    (place : Nat) (dflt : β) : ∃ x, v.fieldD key place decode dflt = some x := by
  simp only [fieldD_eq_some_iff (tidy.top hk).1]
  cases hv : v.lookup? key with
  | none => exact ⟨dflt, (Toml.Value.field_of_none hv).mpr rfl⟩
  | some w =>
    simp only [Toml.Value.field_of_some hv]
    exact h.exists_decode (tidy.entry hsub hv) (hsound w hv)

/-- A field without a default. -/
theorem DecodedBy.optional (h : k.DecodedBy decode Given) :
    k.DecodedBy (fun v => (decode v).map some) fun x? v => ∃ x, x? = some x ∧ Given x v where
  given tidy hx := by
    obtain ⟨x, hdecode, rfl⟩ := Option.map_eq_some_iff.mp hx
    obtain ⟨hsound, hgiven⟩ := h.given tidy hdecode
    exact ⟨hsound, x, rfl, hgiven⟩
  exists_decode tidy hsound := by
    obtain ⟨x, hdecode⟩ := h.exists_decode tidy hsound
    exact ⟨some x, Option.map_eq_some_iff.mpr ⟨x, hdecode, rfl⟩⟩

/-- A value that is no array and no moment stands for a record exactly if it is a table. -/
theorem fits_eq_isRecord (hk : k.isTable = true) (hv : v.isDisguise = false) : k.fits v = v.isRecord := by
  cases v with
  | array | moment => cases hv
  | _ => cases k <;> first | rfl | cases hk

/-- A tidy value is sound as a record if it stands for one and its known fields are sound. -/
theorem Tidy.sound_iff (tidy : k.Tidy v) (hk : k.isTable = true) (hrecord : k ≠ .overrides) : k.Sound v ↔
    v.isRecord = true ∧ ∀ f ∈ k.fields, ∀ w, v.lookup? f.1 = some w → f.2.Sound w := by
  rw [sound_iff_fields hrecord, fits_eq_isRecord hk (tidy.top hk).1]

end Schema

section Records

open Schema

variable {v : Toml.Value}

theorem Window.decode_eq_some_iff {w : Window} : Window.decode v = some w ↔ v.isRecord = true ∧
    v.fieldD "bucket_duration_ms" 0 Toml.Value.asUInt64 1000 = some w.bucketMs ∧
    v.fieldD "num_buckets" 1 Toml.Value.asUInt32 10 = some w.buckets := by
  obtain ⟨bucketMs, buckets⟩ := w
  cases hv : v.isRecord <;> simp [Window.decode, hv, Option.bind_eq_some_iff]

theorem Override.decode_eq_some_iff {o : Override} : Override.decode v = some o ↔ v.isRecord = true ∧
    v.fieldOption "rolling" 0 Window.decode = some o.window ∧
    v.fieldOption "track_fallback" 1 Toml.Value.asBoolean = some o.trackFallback := by
  obtain ⟨window, trackFallback⟩ := o
  cases hv : v.isRecord <;> simp [Override.decode, hv, Option.bind_eq_some_iff]

theorem LogSettings.decode_eq_some_iff {l : LogSettings} : LogSettings.decode v = some l ↔ v.isRecord = true ∧
    v.fieldD "level" 0 Toml.Value.asText "info" = some l.level ∧
    v.fieldD "with_target" 1 Toml.Value.asBoolean true = some l.withTarget := by
  obtain ⟨level, withTarget⟩ := l
  cases hv : v.isRecord <;> simp [LogSettings.decode, hv, Option.bind_eq_some_iff]

theorem Settings.decode_eq_some_iff {s : Settings} : Settings.decode v = some s ↔ v.isRecord = true ∧
    v.fieldD "rolling" 0 Window.decode {} = some s.window ∧
    v.fieldD "track_fallback" 1 Toml.Value.asBoolean true = some s.trackFallback ∧
    v.fieldD "circuits" 2 Override.decodeAll [] = some s.overrides ∧
    v.fieldD "logging" 3 LogSettings.decode {} = some s.logging := by
  obtain ⟨window, trackFallback, overrides, logging⟩ := s
  cases hv : v.isRecord <;> simp [Settings.decode, hv, Option.bind_eq_some_iff, -Bool.exists_bool]

/-- **Decoding of a window.** -/
theorem Window.decodedBy : Schema.window.DecodedBy Window.decode Window.GivenBy where
  given {v w} tidy hw := by
    obtain ⟨hrecord, hms, hn⟩ := Window.decode_eq_some_iff.mp hw
    obtain ⟨hsoundMs, hgivenMs⟩ := decodedBy_width.given_fieldD rfl rfl tidy hms
    obtain ⟨hsoundN, hgivenN⟩ := decodedBy_count.given_fieldD rfl rfl tidy hn
    refine ⟨(Tidy.sound_iff tidy rfl (by decide)).mpr ⟨hrecord, ?_⟩, hgivenMs, hgivenN⟩
    simpa [fields] using ⟨hsoundMs, hsoundN⟩
  exists_decode {v} tidy hsound := by
    obtain ⟨hrecord, hfields⟩ := (Tidy.sound_iff tidy rfl (by decide)).mp hsound
    simp only [fields, List.forall_mem_cons] at hfields
    obtain ⟨ms, hms⟩ := decodedBy_width.exists_fieldD rfl rfl tidy hfields.1 0 1000
    obtain ⟨n, hn⟩ := decodedBy_count.exists_fieldD rfl rfl tidy hfields.2.1 1 10
    exact ⟨⟨ms, n⟩, Window.decode_eq_some_iff.mpr ⟨hrecord, hms, hn⟩⟩

/-- **Decoding of the way to write the log.** -/
theorem LogSettings.decodedBy : Schema.logging.DecodedBy LogSettings.decode LogSettings.GivenBy where
  given {v l} tidy hl := by
    obtain ⟨hrecord, hlevel, htarget⟩ := LogSettings.decode_eq_some_iff.mp hl
    obtain ⟨hsoundLevel, hgivenLevel⟩ := decodedBy_text.given_fieldD rfl rfl tidy hlevel
    obtain ⟨hsoundTarget, hgivenTarget⟩ := decodedBy_truth.given_fieldD rfl rfl tidy htarget
    refine ⟨(Tidy.sound_iff tidy rfl (by decide)).mpr ⟨hrecord, ?_⟩, hgivenLevel, hgivenTarget⟩
    simpa [fields] using ⟨hsoundLevel, hsoundTarget⟩
  exists_decode {v} tidy hsound := by
    obtain ⟨hrecord, hfields⟩ := (Tidy.sound_iff tidy rfl (by decide)).mp hsound
    simp only [fields, List.forall_mem_cons] at hfields
    obtain ⟨level, hlevel⟩ := decodedBy_text.exists_fieldD rfl rfl tidy hfields.1 0 "info"
    obtain ⟨target, htarget⟩ := decodedBy_truth.exists_fieldD rfl rfl tidy hfields.2.1 1 true
    exact ⟨⟨level, target⟩, LogSettings.decode_eq_some_iff.mpr ⟨hrecord, hlevel, htarget⟩⟩

/-- **Decoding of an override.** -/
theorem Override.decodedBy : Schema.override.DecodedBy Override.decode Override.GivenBy where
  given {v o} tidy ho := by
    obtain ⟨hrecord, hwindow, htrack⟩ := Override.decode_eq_some_iff.mp ho
    obtain ⟨hsoundWindow, hgivenWindow⟩ := Window.decodedBy.optional.given_fieldD rfl rfl tidy hwindow
    obtain ⟨hsoundTrack, hgivenTrack⟩ := decodedBy_truth.optional.given_fieldD rfl rfl tidy htrack
    refine ⟨(Tidy.sound_iff tidy rfl (by decide)).mpr ⟨hrecord, ?_⟩, hgivenWindow, hgivenTrack⟩
    simpa [fields] using ⟨hsoundWindow, hsoundTrack⟩
  exists_decode {v} tidy hsound := by
    obtain ⟨hrecord, hfields⟩ := (Tidy.sound_iff tidy rfl (by decide)).mp hsound
    simp only [fields, List.forall_mem_cons] at hfields
    obtain ⟨window, hwindow⟩ := Window.decodedBy.optional.exists_fieldD rfl rfl tidy hfields.1 0 none
    obtain ⟨track, htrack⟩ := decodedBy_truth.optional.exists_fieldD rfl rfl tidy hfields.2.1 1 none
    exact ⟨⟨window, track⟩, Override.decode_eq_some_iff.mpr ⟨hrecord, hwindow, htrack⟩⟩

/-! ### Overrides -/

theorem Override.decodeAll_cons (name : String) (w : Toml.Value) (entries : List (String × Toml.Value)) :
    Override.decodeAll (.table ((name, w) :: entries)) =
      (Override.decode w).bind fun o => (Override.decodeAll (.table entries)).map ((name, o) :: ·) := by
  simp only [Override.decodeAll, List.mapM_cons]
  cases Override.decode w with
  | none => rfl
  | some o => cases List.mapM (fun e : String × Toml.Value => (Override.decode e.2).map fun o => (e.1, o)) entries <;> rfl

/-- The overrides have the names of the table, in their order, and each is decoded from its entry. -/
theorem Override.lookup_of_decodeAll {entries : List (String × Toml.Value)} {os : List (String × Override)}
    (h : Override.decodeAll (.table entries) = some os) : os.map Prod.fst = entries.map Prod.fst ∧
      ∀ name, Toml.Value.Field (.table entries) name
        (fun w => ∃ o, os.lookup name = some o ∧ Override.decode w = some o) (os.lookup name = none) := by
  induction entries generalizing os with
  | nil =>
    cases h
    exact ⟨rfl, fun _ => rfl⟩
  | cons e entries ih =>
    obtain ⟨key, w⟩ := e
    rw [Override.decodeAll_cons] at h
    obtain ⟨o, ho, h⟩ := Option.bind_eq_some_iff.mp h
    obtain ⟨os, hos, rfl⟩ := Option.map_eq_some_iff.mp h
    obtain ⟨hkeys, hentries⟩ := ih hos
    refine ⟨congrArg (key :: ·) hkeys, fun name => ?_⟩
    by_cases hname : name = key
    · subst hname
      simp [Toml.Value.Field, Toml.Value.lookup?, ho]
    · simpa [Toml.Value.Field, Toml.Value.lookup?, List.lookup_cons, beq_false_of_ne hname] using hentries name

theorem Override.exists_decodeAll {entries : List (String × Toml.Value)}
    (h : ∀ e ∈ entries, ∃ o, Override.decode e.2 = some o) : ∃ os, Override.decodeAll (.table entries) = some os := by
  induction entries with
  | nil => exact ⟨[], rfl⟩
  | cons e entries ih =>
    obtain ⟨key, w⟩ := e
    rw [List.forall_mem_cons] at h
    obtain ⟨o, ho⟩ := h.1
    obtain ⟨os, hos⟩ := ih h.2
    refine ⟨(key, o) :: os, ?_⟩
    rw [Override.decodeAll_cons, ho, hos]
    rfl

/-- **Decoding of all overrides.** -/
theorem Override.decodedBy_all : Schema.overrides.DecodedBy Override.decodeAll Override.AllGivenBy where
  given {v os} tidy hos := by
    cases v with
    | table entries =>
      obtain ⟨hkeys, hentries⟩ := Override.lookup_of_decodeAll hos
      have hentry : ∀ name w, Toml.Value.lookup? (.table entries) name = some w →
          Schema.override.Sound w ∧ ∃ o, os.lookup name = some o ∧ o.GivenBy w := by
        intro name w hw
        obtain ⟨o, ho, hdecode⟩ := (Toml.Value.field_of_some hw).mp (hentries name)
        obtain ⟨hsound, hgiven⟩ := Override.decodedBy.given (tidy.entry rfl hw) hdecode
        exact ⟨hsound, o, ho, hgiven⟩
      refine ⟨everywhere_iff.mpr ⟨rfl, fun key k' w hk hw => ?_⟩, hkeys ▸ (tidy.top rfl).2, fun name => ?_⟩
      · cases hk
        exact (hentry key w hw).1
      · cases hw : Toml.Value.lookup? (.table entries) name with
        | none => exact (Toml.Value.field_of_none hw).mpr ((Toml.Value.field_of_none hw).mp (hentries name))
        | some w => exact (Toml.Value.field_of_some hw).mpr (hentry name w hw).2
    | _ => cases hos
  exists_decode {v} tidy hsound := by
    cases v with
    | table entries =>
      refine Override.exists_decodeAll fun e he => ?_
      have hlookup : entries.lookup e.1 = some e.2 := (Settings.lookup_eq_some_iff_mem (tidy.top rfl).2).mpr he
      exact Override.decodedBy.exists_decode (tidy.entry rfl hlookup) (hsound.entry rfl hlookup)
    | _ => cases hsound.top

/-- **Decoding of settings.** -/
theorem Settings.decodedBy : Schema.settings.DecodedBy Settings.decode Settings.GivenBy where
  given {v s} tidy hs := by
    obtain ⟨hrecord, hwindow, htrack, hoverrides, hlogging⟩ := Settings.decode_eq_some_iff.mp hs
    obtain ⟨hsoundWindow, hgivenWindow⟩ := Window.decodedBy.given_fieldD rfl rfl tidy hwindow
    obtain ⟨hsoundTrack, hgivenTrack⟩ := decodedBy_truth.given_fieldD rfl rfl tidy htrack
    obtain ⟨hsoundOverrides, hgivenOverrides⟩ := Override.decodedBy_all.given_fieldD rfl rfl tidy hoverrides
    obtain ⟨hsoundLogging, hgivenLogging⟩ := LogSettings.decodedBy.given_fieldD rfl rfl tidy hlogging
    refine ⟨(Tidy.sound_iff tidy rfl (by decide)).mpr ⟨hrecord, ?_⟩, hgivenWindow, hgivenTrack, hgivenOverrides, hgivenLogging⟩
    simpa [fields] using ⟨hsoundWindow, hsoundTrack, hsoundOverrides, hsoundLogging⟩
  exists_decode {v} tidy hsound := by
    obtain ⟨hrecord, hfields⟩ := (Tidy.sound_iff tidy rfl (by decide)).mp hsound
    simp only [fields, List.forall_mem_cons] at hfields
    obtain ⟨window, hwindow⟩ := Window.decodedBy.exists_fieldD rfl rfl tidy hfields.1 0 {}
    obtain ⟨track, htrack⟩ := decodedBy_truth.exists_fieldD rfl rfl tidy hfields.2.1 1 true
    obtain ⟨overrides, hoverrides⟩ := Override.decodedBy_all.exists_fieldD rfl rfl tidy hfields.2.2.1 2 []
    obtain ⟨logging, hlogging⟩ := LogSettings.decodedBy.exists_fieldD rfl rfl tidy hfields.2.2.2.1 3 {}
    exact ⟨⟨window, track, overrides, logging⟩,
      Settings.decode_eq_some_iff.mpr ⟨hrecord, hwindow, htrack, hoverrides, hlogging⟩⟩

end Records
end CallGuard
