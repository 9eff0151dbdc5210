import Hocon.Project.Version
import Hocon.Proofs.Numerals
import Mathlib.Data.List.Sort

/-!
# The versions that a project supports

Which version a classifier names is told by a relation (`Hocon.Project.NamesVersion`): behind the
mark and between blanks stand two runs of digits with a point between them. Different classifiers
may name one version, by zeros in front of a number or by digits of another script, and a version
has one text (`Hocon.Project.Version.text_injective`), so the versions that a list of classifiers
names are a set, and the order of the list does not matter for it.

The one thing to know about sorting is that a list that goes strictly upwards is determined by its
members (`List.Pairwise.eq_of_mem_iff`). So whatever the order in which the set is handed to
`Hocon.Project.sortVersions`, what comes out is the same.

| what is said of | theorem |
|---|---|
| one classifier | `Hocon.Project.classifierVersion_eq_some_iff` |
| a list of classifiers | `Hocon.Project.exists_classifierVersions` |
| the sorted versions | `Hocon.Project.pairwise_sortVersions`, `Hocon.Project.mem_sortVersions` |
-/

namespace Hocon

namespace Project

/-! ### Versions and their texts -/

/-- A run of digits has no point in it. -/
theorem splitOn_of_isDigits {cs : List Char} (h : isDigits cs = true) : splitOn '.' cs = [cs] := by
  rw [splitOn_eq]
  refine List.splitOn_eq_singleton fun hmem => ?_
  exact absurd ((isDigits_iff.mp h).2 _ hmem) (by decide)

namespace Version

/-- **The order of versions**: by the first number, and then by the second, as numbers. -/
def Below (v w : Version) : Prop := v.major < w.major ∨ v.major = w.major ∧ v.minor < w.minor

theorem le_iff {v w : Version} : v.le w = true ↔ v.Below w ∨ v = w := by
  obtain ⟨major, minor⟩ := v
  obtain ⟨major', minor'⟩ := w
  simp only [le, Below, Bool.or_eq_true, Bool.and_eq_true, decide_eq_true_eq, mk.injEq]
  omega

theorem Below.trans {u v w : Version} (h : u.Below v) (h' : v.Below w) : u.Below w := by
  unfold Below at *
  omega

theorem below_or_eq_or_below (v w : Version) : v.Below w ∨ v = w ∨ w.Below v := by
  obtain ⟨major, minor⟩ := v
  obtain ⟨major', minor'⟩ := w
  simp only [Below, mk.injEq]
  omega

instance : Std.Irrefl Below where
  irrefl v h := by
    unfold Below at h
    omega

instance : Std.Antisymm Below where
  antisymm v _ h h' := absurd (h.trans h') (Std.Irrefl.irrefl v)

theorem toList_text (v : Version) :
    v.text.toList = Nat.toDigits 10 v.major ++ '.' :: Nat.toDigits 10 v.minor := by
  have htext : ∀ n : ℕ, (toString n).toList = Nat.toDigits 10 n := fun n => Nat.toList_repr
  rw [text, String.toList_append, String.toList_append, htext, htext]
  simp

/-- The text of a version has two parts, of which the numbers are read back. -/
theorem numerals_text (v : Version) :
    (splitOn '.' v.text.toList).map numeral? = [some v.major, some v.minor] := by
  rw [toList_text, splitOn_append, splitOn_of_isDigits (isDigits_toDigits _),
    splitOn_of_isDigits (isDigits_toDigits _), List.map_append, List.map_singleton,
    List.map_singleton, numeral?_toDigits, numeral?_toDigits]
  rfl

/-- **A version has one text, and a text has one version.** -/
theorem text_injective : Function.Injective text := by
  intro v w h
  have hnumerals := v.numerals_text
  rw [h, w.numerals_text] at hnumerals
  obtain ⟨major, minor⟩ := v
  obtain ⟨major', minor'⟩ := w
  simpa using hnumerals.symm

end Version

/-! ### Sorting -/

/-- What is left of a list when each member is kept once. -/
theorem nodup_eraseDups {α : Type} [BEq α] [LawfulBEq α] (l : List α) : l.eraseDups.Nodup := by
  match l with
  | [] => exact List.nodup_nil
  | a :: rest =>
    rw [List.eraseDups_cons, List.nodup_cons, List.mem_eraseDups]
    exact ⟨by simp, nodup_eraseDups _⟩
termination_by l.length
decreasing_by exact Nat.lt_succ_of_le (List.length_filter_le _ _)

theorem mem_sortVersions {versions : List Version} {v : Version} :
    v ∈ sortVersions versions ↔ v ∈ versions := by
  rw [sortVersions, List.mem_mergeSort, List.mem_eraseDups]

/-- **Sorted versions go strictly upwards**, since each is kept once. -/
theorem pairwise_sortVersions (versions : List Version) :
    (sortVersions versions).Pairwise Version.Below := by
  have htrans : ∀ u v w : Version, u.le v = true → v.le w = true → u.le w = true := by
    intro u v w huv hvw
    rw [Version.le_iff] at *
    rcases huv with huv | rfl
    · rcases hvw with hvw | rfl
      · exact .inl (huv.trans hvw)
      · exact .inl huv
    · exact hvw
  have htotal : ∀ v w : Version, (v.le w || w.le v) = true := by
    intro v w
    rw [Bool.or_eq_true, Version.le_iff, Version.le_iff]
    rcases Version.below_or_eq_or_below v w with h | h | h
    · exact .inl (.inl h)
    · exact .inl (.inr h)
    · exact .inr (.inl h)
  have hsorted := List.pairwise_mergeSort htrans htotal versions.eraseDups
  -- sorting allows for equal neighbours, of which there are none
  have hnodup : (sortVersions versions).Nodup := List.nodup_mergeSort.mpr (nodup_eraseDups _)
  refine (hsorted.and hnodup).imp ?_
  rintro v w ⟨hle, hne⟩
  exact (Version.le_iff.mp hle).resolve_right hne

/-- Sorting depends on the members only. -/
theorem sortVersions_congr {versions versions' : List Version}
    (h : ∀ v, v ∈ versions ↔ v ∈ versions') : sortVersions versions = sortVersions versions' := by
  refine (pairwise_sortVersions _).eq_of_mem_iff (pairwise_sortVersions _) fun v => ?_
  rw [mem_sortVersions, mem_sortVersions, h]

/-! ### Classifiers -/

/-- **The version that a classifier names**: behind the mark stand two runs of digits, with a point
between them and blanks around them. -/
inductive NamesVersion (classifier : String) (v : Version) : Prop
  /-- The runs of digits are numerals of the two numbers. -/
  | intro {rest : String} {major minor : List Char} (marked : classifier = versionMark ++ rest)
      (stripped : strip rest.toList = major ++ '.' :: minor) (majorDigits : isDigits major = true)
      (minorDigits : isDigits minor = true) (majorValue : readNumeral major = .ok v.major)
      (minorValue : readNumeral minor = .ok v.minor)

/-- **A classifier whose digits form numbers**: each component behind the mark that consists of
digits can be read. -/
def HasNumbers (classifier : String) : Prop :=
  ∀ rest, classifier = versionMark ++ rest → ∀ part ∈ splitOn '.' (strip rest.toList),
    isDigits part = true → ∃ n, readNumeral part = .ok n

theorem splitOn_eq_pair {cs major minor : List Char} (h : splitOn '.' cs = [major, minor]) :
    cs = major ++ '.' :: minor := by
  obtain ⟨-, -, hjoined⟩ := splitOn_eq_iff.mp h
  rw [← hjoined, List.intercalate_cons_cons]
  simp

/-- Two runs of digits with a point between them are read one after the other. -/
theorem readVersion_of_isDigits {cs major minor : List Char}
    (hstrip : strip cs = major ++ '.' :: minor) (hmajor : isDigits major = true)
    (hminor : isDigits minor = true) :
    readVersion cs = do
      return some { major := ← readComponent major, minor := ← readComponent minor } := by
  have hparts : splitOn '.' (strip cs) = [major, minor] := by
    rw [hstrip, splitOn_append, splitOn_of_isDigits hmajor, splitOn_of_isDigits hminor]
    rfl
  simp only [readVersion, hparts, hmajor, hminor, Bool.and_self, if_true]

/-- All else is no version. -/
theorem readVersion_cases (cs : List Char) :
    (∃ major minor, strip cs = major ++ '.' :: minor ∧ isDigits major = true ∧
      isDigits minor = true) ∨ readVersion cs = .ok none := by
  rw [readVersion]
  split
  · rename_i major minor hparts
    cases hdigits : isDigits major && isDigits minor with
    | true =>
      rw [Bool.and_eq_true] at hdigits
      exact .inl ⟨major, minor, splitOn_eq_pair hparts, hdigits⟩
    | false => exact .inr rfl
  · exact .inr rfl

theorem readComponent_eq_ok_iff {cs : List Char} {n : ℕ} :
    readComponent cs = .ok n ↔ readNumeral cs = .ok n := by
  rw [readComponent]
  cases readNumeral cs <;> simp [Except.mapError]

theorem readVersion_eq_some_iff {cs : List Char} {v : Version} :
    readVersion cs = .ok (some v) ↔ ∃ major minor, strip cs = major ++ '.' :: minor ∧
      isDigits major = true ∧ isDigits minor = true ∧ readNumeral major = .ok v.major ∧
        readNumeral minor = .ok v.minor := by
  constructor
  · intro h
    rcases readVersion_cases cs with ⟨major, minor, hstrip, hmajor, hminor⟩ | hnone
    · rw [readVersion_of_isDigits hstrip hmajor hminor] at h
      cases hm : readComponent major with
      | error e =>
        rw [hm] at h
        cases h
      | ok m =>
        cases hn : readComponent minor with
        | error e =>
          rw [hm, hn] at h
          cases h
        | ok n =>
          rw [hm, hn] at h
          cases h
          exact ⟨major, minor, hstrip, hmajor, hminor, readComponent_eq_ok_iff.mp hm,
            readComponent_eq_ok_iff.mp hn⟩
    · rw [hnone] at h
      cases h
  · rintro ⟨major, minor, hstrip, hmajor, hminor, hm, hn⟩
    rw [readVersion_of_isDigits hstrip hmajor hminor, readComponent_eq_ok_iff.mpr hm,
      readComponent_eq_ok_iff.mpr hn]
    rfl

/-- What is read of a text whose digits form numbers. -/
theorem exists_readVersion {cs : List Char} (h : ∀ part ∈ splitOn '.' (strip cs),
    isDigits part = true → ∃ n, readNumeral part = .ok n) :
    ∃ found, readVersion cs = .ok found := by
  rcases readVersion_cases cs with ⟨major, minor, hstrip, hmajor, hminor⟩ | hnone
  · rw [hstrip, splitOn_append, splitOn_of_isDigits hmajor, splitOn_of_isDigits hminor] at h
    obtain ⟨m, hm⟩ := h major (by simp) hmajor
    obtain ⟨n, hn⟩ := h minor (by simp) hminor
    exact ⟨some ⟨m, n⟩, readVersion_eq_some_iff.mpr ⟨major, minor, hstrip, hmajor, hminor, hm, hn⟩⟩
  · exact ⟨none, hnone⟩

theorem isPrefixOf_mark_iff {classifier : String} :
    versionMark.toList.isPrefixOf classifier.toList = true ↔
      ∃ rest, classifier = versionMark ++ rest := by
  rw [List.isPrefixOf_iff_prefix]
  constructor
  · rintro ⟨rest, hrest⟩
    refine ⟨String.ofList rest, String.toList_inj.mp ?_⟩
    rw [String.toList_append, String.toList_ofList, hrest]
  · rintro ⟨rest, rfl⟩
    rw [String.toList_append]
    exact List.prefix_append _ _

theorem drop_mark (rest : String) :
    (versionMark ++ rest).toList.drop versionMark.length = rest.toList := by
  rw [String.toList_append]
  rfl

theorem classifierVersion_mark (rest : String) :
    classifierVersion (versionMark ++ rest) = readVersion rest.toList := by
  rw [classifierVersion, if_pos (isPrefixOf_mark_iff.mpr ⟨rest, rfl⟩), drop_mark]

theorem classifierVersion_of_ne {classifier : String}
    (h : ¬∃ rest, classifier = versionMark ++ rest) : classifierVersion classifier = .ok none := by
  rw [classifierVersion, if_neg (mt isPrefixOf_mark_iff.mp h)]
  rfl

/-- **A classifier is read as the version that it names.** -/
theorem classifierVersion_eq_some_iff {classifier : String} {v : Version} :
    classifierVersion classifier = .ok (some v) ↔ NamesVersion classifier v := by
  constructor
  · intro h
    by_cases hmark : ∃ rest, classifier = versionMark ++ rest
    · obtain ⟨rest, rfl⟩ := hmark
      rw [classifierVersion_mark, readVersion_eq_some_iff] at h
      obtain ⟨major, minor, hstrip, hmajor, hminor, hm, hn⟩ := h
      exact .intro rfl hstrip hmajor hminor hm hn
    · rw [classifierVersion_of_ne hmark] at h
      cases h
  · rintro ⟨rfl, hstrip, hmajor, hminor, hm, hn⟩
    rw [classifierVersion_mark, readVersion_eq_some_iff]
    exact ⟨_, _, hstrip, hmajor, hminor, hm, hn⟩

theorem hasNumbers_iff {classifier : String} :
    HasNumbers classifier ↔ (versionMark.toList.isPrefixOf classifier.toList = true →
      ∀ part ∈ splitOn '.' (strip (classifier.toList.drop versionMark.length)),
        isDigits part = true → (readNumeral part).toOption.isSome = true) := by
  have hread : ∀ part : List Char,
      (readNumeral part).toOption.isSome = true ↔ ∃ n, readNumeral part = .ok n := by
    intro part
    cases readNumeral part <;> simp [Except.toOption]
  simp only [isPrefixOf_mark_iff, hread]
  constructor
  · rintro h ⟨rest, rfl⟩
    rw [drop_mark]
    exact h rest rfl
  · rintro h rest rfl
    have hparts := h ⟨rest, rfl⟩
    rwa [drop_mark] at hparts

instance (classifier : String) : Decidable (HasNumbers classifier) :=
  decidable_of_iff _ hasNumbers_iff.symm

theorem HasNumbers.exists_classifierVersion {classifier : String} (h : HasNumbers classifier) :
    ∃ found, classifierVersion classifier = .ok found := by
  by_cases hmark : ∃ rest, classifier = versionMark ++ rest
  · obtain ⟨rest, rfl⟩ := hmark
    rw [classifierVersion_mark]
    exact exists_readVersion (h rest rfl)
  · exact ⟨none, classifierVersion_of_ne hmark⟩

/-- **A list of classifiers is read as the versions that they name.** -/
theorem exists_classifierVersions {names : List String} (h : ∀ name ∈ names, HasNumbers name) :
    ∃ found, classifierVersions (names.map .str) = .ok found ∧
      ∀ v, v ∈ found ↔ ∃ name ∈ names, NamesVersion name v := by
  induction names with
  | nil => exact ⟨[], rfl, by simp⟩
  | cons name names ih =>
    rw [List.forall_mem_cons] at h
    obtain ⟨first, hfirst⟩ := h.1.exists_classifierVersion
    obtain ⟨found, hfound, hmem⟩ := ih h.2
    refine ⟨first.toList ++ found, ?_, fun v => ?_⟩
    · rw [List.map_cons, classifierVersions, hfirst, hfound]
      rfl
    · have hname : v ∈ first.toList ↔ NamesVersion name v := by
        rw [← classifierVersion_eq_some_iff, hfirst, Option.mem_toList]
        simp
      rw [List.mem_append, hname, hmem, List.exists_mem_cons_iff]

/-! ### Projects -/

/-- **A table that describes a project** with a list of texts as its classifiers. -/
structure HasClassifiers (table : Entries) (names : List String) : Prop where
  /-- The classifiers stand in the table of the project. -/
  described : ∃ project : Entries, table.lookup "project" = some (.map project) ∧
    project.lookup "classifiers" = some (.list (names.map .str))

theorem HasClassifiers.supportedVersions_eq {table : Entries} {names : List String}
    (h : HasClassifiers table names) (running : Version) {found : List Version}
    (hfound : classifierVersions (names.map .str) = .ok found) :
    supportedVersions running table =
      .ok (if found.isEmpty then [running] else sortVersions found) := by
  obtain ⟨project, hproject, hclassifiers⟩ := h.described
  have hdescription : description? table = some project := by
    rw [description?, hproject]
  simp only [supportedVersions, hdescription, hclassifiers, Option.getD_some, classifiers]
  change (classifierVersions (names.map .str) >>= fun found => _) = _
  rw [hfound]
  rfl

/-- **The versions selected by classifiers**, where the given version is the running one. -/
structure Selects (running : Version) (names : List String) (versions : List Version) :
    Prop where
  /-- There is a version. -/
  ne_nil : versions ≠ []
  /-- The versions go strictly upwards. -/
  increasing : versions.Pairwise Version.Below
  /-- No two of them have the same text. -/
  nodup_text : (versions.map Version.text).Nodup
  /-- If a classifier names a version, then their texts are just those of the named ones. -/
  mem_iff : (∃ name ∈ names, ∃ v, NamesVersion name v) → ∀ text,
    text ∈ versions.map Version.text ↔ ∃ name ∈ names, ∃ v, NamesVersion name v ∧ v.text = text
  /-- If none does, then the running version stands alone. -/
  eq_running : (¬∃ name ∈ names, ∃ v, NamesVersion name v) → versions = [running]

theorem selects_of_isEmpty (running : Version) {names : List String}
    (h : ¬∃ name ∈ names, ∃ v, NamesVersion name v) : Selects running names [running] where
  ne_nil := List.cons_ne_nil _ _
  increasing := List.pairwise_singleton _ _
  nodup_text := List.nodup_singleton _
  mem_iff hnamed := absurd hnamed h
  eq_running _ := rfl

theorem selects_sortVersions (running : Version) {names : List String} {found : List Version}
    (hmem : ∀ v, v ∈ found ↔ ∃ name ∈ names, NamesVersion name v) (hne : found ≠ []) :
    Selects running names (sortVersions found) where
  ne_nil := by
    obtain ⟨v, hv⟩ := List.exists_mem_of_ne_nil found hne
    exact List.ne_nil_of_mem (mem_sortVersions.mpr hv)
  increasing := pairwise_sortVersions found
  nodup_text := (pairwise_sortVersions found).nodup.map Version.text_injective
  mem_iff _ text := by
    simp only [List.mem_map, mem_sortVersions, hmem]
    constructor
    · rintro ⟨v, ⟨name, hname, hv⟩, htext⟩
      exact ⟨name, hname, v, hv, htext⟩
    · rintro ⟨name, hname, v, hv, htext⟩
      exact ⟨v, ⟨name, hname, hv⟩, htext⟩
  eq_running hnone := by
    obtain ⟨v, hv⟩ := List.exists_mem_of_ne_nil found hne
    obtain ⟨name, hname, hnames⟩ := (hmem v).mp hv
    exact absurd ⟨name, hname, v, hnames⟩ hnone

/-- **The versions that a project supports are just those that its classifiers name, in ascending
order.** Let a table describe a project whose classifiers are any texts, and let what consists of
digits in them form numbers. Then versions are selected: at least one, each once, in strictly
ascending order of their numbers, and just those that a classifier names; only if there are none of
these, the version of the running interpreter stands in, whichever it is. Any other table of which
the classifiers are the same up to their order yields the same versions. -/
theorem supportedVersions_selects (running : Version) {table : Entries} {names : List String}
    (h : HasClassifiers table names) (hnumbers : ∀ name ∈ names, HasNumbers name) :
    ∃ versions, supportedVersions running table = .ok versions ∧ Selects running names versions ∧
      ∀ (table' : Entries) (names' : List String), HasClassifiers table' names' →
        names'.Perm names → supportedVersions running table' = .ok versions := by
  obtain ⟨found, hfound, hmem⟩ := exists_classifierVersions hnumbers
  refine ⟨_, h.supportedVersions_eq running hfound, ?_, fun table' names' h' hperm => ?_⟩
  · cases hempty : found.isEmpty with
    | true =>
      refine selects_of_isEmpty running ?_
      rintro ⟨name, hname, v, hv⟩
      rw [List.isEmpty_iff.mp hempty] at hmem
      exact absurd ((hmem v).mpr ⟨name, hname, hv⟩) List.not_mem_nil
    | false => exact selects_sortVersions running hmem (by simpa using hempty)
  · have hnumbers' : ∀ name ∈ names', HasNumbers name :=
      fun name hname => hnumbers name (hperm.mem_iff.mp hname)
    obtain ⟨found', hfound', hmem'⟩ := exists_classifierVersions hnumbers'
    -- another order gives another list of versions, with the same members
    have hsame : ∀ v, v ∈ found' ↔ v ∈ found := by
      intro v
      simp only [hmem', hmem, hperm.mem_iff]
    have hempty : found'.isEmpty = found.isEmpty := by
      rw [Bool.eq_iff_iff, List.isEmpty_iff, List.isEmpty_iff, List.eq_nil_iff_forall_not_mem,
        List.eq_nil_iff_forall_not_mem]
      simp only [hsame]
    rw [h'.supportedVersions_eq running hfound', hempty, sortVersions_congr hsame]

/-- Two projects list the same classifiers in a different order, one version of them twice and once
with a zero in front, and one that names the first number only. -/
theorem supportedVersions_selects_of_projects :
    let names := ["Programming Language :: Python :: 3.10", "Programming Language :: Python :: 3",
      "Programming Language :: Python :: 3.09", "Topic :: Text Processing :: 3.12",
      "Programming Language :: Python ::  3.9 "]
    let table : List String → Entries := fun names =>
      [(.str "project", .map [(.str "classifiers", .list (names.map .str))])]
    HasClassifiers (table names) names ∧ (∀ name ∈ names, HasNumbers name) ∧
      names.reverse.Perm names ∧ Selects ⟨3, 11⟩ names [⟨3, 9⟩, ⟨3, 10⟩] ∧
      supportedVersions ⟨3, 11⟩ (table names.reverse) = .ok [⟨3, 9⟩, ⟨3, 10⟩] := by
  intro names table
  have hclassifiers : ∀ names, HasClassifiers (table names) names :=
    fun names => ⟨⟨_, rfl, rfl⟩⟩
  have hnumbers : ∀ name ∈ names, HasNumbers name := by decide +kernel
  obtain ⟨versions, hversions, hselects, hperm⟩ :=
    supportedVersions_selects ⟨3, 11⟩ (hclassifiers names) hnumbers
  have hfound : classifierVersions (names.map .str) = .ok [⟨3, 10⟩, ⟨3, 9⟩, ⟨3, 9⟩] := rfl
  have hsorted : sortVersions [⟨3, 10⟩, ⟨3, 9⟩, ⟨3, 9⟩] = [⟨3, 9⟩, ⟨3, 10⟩] := by
    refine (pairwise_sortVersions _).eq_of_mem_iff (by simp [Version.Below]) fun v => ?_
    rw [mem_sortVersions]
    simp [or_comm]
  have hvalue : supportedVersions ⟨3, 11⟩ (table names) = .ok [⟨3, 9⟩, ⟨3, 10⟩] := by
    rw [(hclassifiers names).supportedVersions_eq _ hfound]
    exact congrArg _ hsorted
  obtain rfl : versions = [⟨3, 9⟩, ⟨3, 10⟩] := Except.ok.inj (hversions.symm.trans hvalue)
  exact ⟨hclassifiers names, hnumbers, List.reverse_perm names, hselects,
    hperm _ _ (hclassifiers _) (List.reverse_perm names)⟩

end Project

end Hocon
