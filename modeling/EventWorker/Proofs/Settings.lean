import EventWorker.Settings
import EventWorker.Proofs.Keyed
import EventWorker.Proofs.Text.Pieces

/-!
# Configuration lines

Results:
1. `parse_join`, `get?_override`: of two lines with a semicolon between them the second one
   overrides the first.
2. `parse_spelled`: entries are read back however they are written.
3. `parse_composes`: both together.
-/

namespace EventWorker.Settings

/-! ## One line after another -/

/-- The settings `s` with those of `t` in place of its own where both have a value. -/
def override (s t : Settings) : Settings :=
  ⟨Keyed.union s.entries t.entries⟩

theorem get?_single (s : Settings) (key : String) : s.get? [key] = Keyed.find? key s.entries := by
  rw [get?, List.findSome?_cons]
  cases Keyed.find? key s.entries <;> rfl

theorem ascending_parse (line : String) : Keyed.Ascending (parse line).entries :=
  Keyed.Ascending.ofList _

theorem get?_override (s : Settings) (line key : String) :
    (s.override (parse line)).get? [key] = ((parse line).get? [key]).or (s.get? [key]) := by
  rw [get?_single, get?_single, get?_single, override, Keyed.find?_union,
    (ascending_parse line).ofList_eq]

theorem parse_join (a b : String) : parse (a ++ ";" ++ b) = (parse a).override (parse b) := by
  have joined : (a ++ ";" ++ b).toList = a.toList ++ ';' :: b.toList := by
    rw [String.toList_append, String.toList_append, List.append_assoc]
    rfl
  rw [parse, joined, Text.pieces_append, List.filterMap_append]
  refine congrArg Settings.mk ?_
  rw [Keyed.ofList, List.foldl_append]
  exact ((ascending_parse a).union_ofList _).symm

/-! ## Entries as they are written -/

/-- An entry that can be written down: the key is not empty, neither part has blanks around it or
a semicolon in it, and the key has no equals sign. -/
structure Plain (entry : String × String) : Prop where
  key_ne : entry.1 ≠ ""
  key_trimmed : Text.trimmed entry.1 = entry.1
  key_semicolon : ';' ∉ entry.1.toList
  key_equals : '=' ∉ entry.1.toList
  value_trimmed : Text.trimmed entry.2 = entry.2
  value_semicolon : ';' ∉ entry.2.toList

/-- Segments that write entries down in their order: each entry as a key, an equals sign and a
value with blanks around both, and between them segments without an equals sign. -/
inductive Spells : List (String × String) → List String → Prop
  | done : Spells [] []
  | idle {entries : List (String × String)} {segments : List String} {segment : String} :
      '=' ∉ segment.toList → ';' ∉ segment.toList → Spells entries segments →
      Spells entries (segment :: segments)
  | entry {entries : List (String × String)} {segments : List String}
      {key value a b c d : String} :
      Text.Blank a.toList → Text.Blank b.toList → Text.Blank c.toList → Text.Blank d.toList →
      Spells entries segments →
      Spells ((key, value) :: entries)
        ((a ++ key ++ b ++ "=" ++ (c ++ value ++ d)) :: segments)

theorem toList_trimmed {s : String} (h : Text.trimmed s = s) : Text.trim s.toList = s.toList := by
  have same := congrArg String.toList h
  rwa [Text.trimmed, String.toList_ofList] at same

/-- An entry is read whatever blanks are around its parts. -/
theorem segment?_entry {key value a b c d : String} (plain : Plain (key, value))
    (ha : Text.Blank a.toList) (hb : Text.Blank b.toList) (hc : Text.Blank c.toList)
    (hd : Text.Blank d.toList) :
    segment? (a ++ key ++ b ++ "=" ++ (c ++ value ++ d)).toList = some (key, value) := by
  have solid : Text.isBlank '=' = false := by decide
  have left : '=' ∉ a.toList ++ key.toList ++ b.toList := by
    rw [List.mem_append, List.mem_append, not_or, not_or]
    exact ⟨⟨ha.notMem solid, plain.key_equals⟩, hb.notMem solid⟩
  have parts : (a ++ key ++ b ++ "=" ++ (c ++ value ++ d)).toList =
      a.toList ++ key.toList ++ b.toList ++ '=' :: (c.toList ++ value.toList ++ d.toList) := by
    simp only [String.toList_append, List.append_assoc]
    rfl
  have key_read : Text.trim (a.toList ++ key.toList ++ b.toList) = key.toList :=
    (Text.trim_padded ha hb _).trans (toList_trimmed plain.key_trimmed)
  have value_read : Text.trim (c.toList ++ value.toList ++ d.toList) = value.toList :=
    (Text.trim_padded hc hd _).trans (toList_trimmed plain.value_trimmed)
  have named : ¬ key.toList.isEmpty = true := by
    rw [List.isEmpty_iff]
    exact fun none => plain.key_ne (String.toList_inj.mp none)
  rw [parts, segment?, Text.cut?_append left, Option.bind_some]
  show (if (Text.trim _).isEmpty = true then none else some (String.ofList (Text.trim _), _)) = _
  rw [key_read, value_read, if_neg named, String.ofList_toList, String.ofList_toList]

theorem segment?_idle {segment : List Char} (h : '=' ∉ segment) : segment? segment = none := by
  rw [segment?, Text.cut?_of_notMem h]
  rfl

namespace Spells

variable {entries : List (String × String)} {segments : List String}

/-- No segment has a semicolon in it. -/
theorem semicolon (h : Spells entries segments) (plain : ∀ entry ∈ entries, Plain entry) :
    ∀ segment ∈ segments, ';' ∉ segment.toList := by
  induction h with
  | done => exact fun _ none => absurd none List.not_mem_nil
  | idle _ hs _ ih => exact List.forall_mem_cons.mpr ⟨hs, ih plain⟩
  | @entry entries segments key value a b c d ha hb hc hd _ ih =>
    obtain ⟨first, rest⟩ := List.forall_mem_cons.mp plain
    have solid : Text.isBlank ';' = false := by decide
    refine List.forall_mem_cons.mpr ⟨?_, ih rest⟩
    have equals : ';' ∉ "=".toList := by decide
    simp only [String.toList_append, List.mem_append, not_or]
    exact ⟨⟨⟨⟨ha.notMem solid, first.key_semicolon⟩, hb.notMem solid⟩, equals⟩,
      ⟨hc.notMem solid, first.value_semicolon⟩, hd.notMem solid⟩

/-- The segments that say something are those of the entries. -/
theorem filterMap_segment? (h : Spells entries segments) (plain : ∀ entry ∈ entries, Plain entry) :
    (segments.map String.toList).filterMap segment? = entries := by
  induction h with
  | done => rfl
  | idle hs _ _ ih =>
    rw [List.map_cons, List.filterMap_cons_none (segment?_idle hs)]
    exact ih plain
  | entry ha hb hc hd _ ih =>
    obtain ⟨first, rest⟩ := List.forall_mem_cons.mp plain
    rw [List.map_cons, List.filterMap_cons_some (segment?_entry first ha hb hc hd), ih rest]

end Spells

/-- What is read is what was written, a later entry with a key in place of an earlier one. -/
theorem parse_spelled {entries : List (String × String)} {segments : List String}
    (h : Spells entries segments) (plain : ∀ entry ∈ entries, Plain entry) :
    parse (";".intercalate segments) = ⟨Keyed.ofList entries⟩ := by
  refine congrArg (fun entries => Settings.mk (Keyed.ofList entries)) ?_
  rw [String.toList_intercalate]
  by_cases none : segments = []
  · subst none
    cases h
    rfl
  · have apart : ∀ segment ∈ segments.map String.toList, ';' ∉ segment :=
      List.forall_mem_map.mpr (h.semicolon plain)
    have split := Text.pieces_intercalate (mt List.map_eq_nil_iff.mp none) apart
    exact (congrArg (List.filterMap segment?) split).trans (h.filterMap_segment? plain)

/-- Two lines with a semicolon between them mean the settings of the first one overridden by those
of the second, and a finite map is read back from its entries in any order, however they are
spelled. -/
theorem parse_composes :
    (∀ a b : String, parse (a ++ ";" ++ b) = (parse a).override (parse b) ∧
      ∀ key, ((parse a).override (parse b)).get? [key] =
        ((parse b).get? [key]).or ((parse a).get? [key])) ∧
    ∀ entries segments, (Keyed.keys entries).Nodup → (∀ entry ∈ entries, Plain entry) →
      Spells entries segments → (parse (";".intercalate segments)).entries.Perm entries ∧
        ∀ key value, (parse (";".intercalate segments)).get? [key] = some value ↔
          (key, value) ∈ entries := by
  refine ⟨fun a b => ⟨parse_join a b, get?_override (parse a) b⟩, ?_⟩
  intro entries segments distinct plain spelled
  have same := Keyed.Ascending.ofList_perm distinct
  rw [parse_spelled spelled plain]
  refine ⟨same, fun key value => ?_⟩
  rw [get?_single, ← (Keyed.Ascending.ofList entries).mem_iff, same.mem_iff]

/-- The entries are read back from `" keepalive = 60 ;;junk;host=a=b"`. -/
theorem parse_composes_keepalive :
    let entries := [("keepalive", "60"), ("host", "a=b")]
    let segments := [" keepalive = 60 ", "", "junk", "host=a=b"]
    (Keyed.keys entries).Nodup ∧ (∀ entry ∈ entries, Plain entry) ∧ Spells entries segments ∧
      (parse (";".intercalate segments)).entries.Perm entries ∧
      ∀ key value, (parse (";".intercalate segments)).get? [key] = some value ↔
        (key, value) ∈ entries := by
  intro entries segments
  have distinct : (Keyed.keys entries).Nodup := by decide
  have plain : ∀ entry ∈ entries, Plain entry := by
    refine List.forall_mem_cons.mpr ⟨?_, List.forall_mem_singleton.mpr ?_⟩
    · exact ⟨by decide, by decide, by decide, by decide, by decide, by decide⟩
    · exact ⟨by decide, by decide, by decide, by decide, by decide, by decide⟩
  have host : Spells [("host", "a=b")] ["host=a=b"] :=
    @Spells.entry _ _ "host" "a=b" "" "" "" "" (by decide) (by decide) (by decide) (by decide) .done
  have junk : Spells [("host", "a=b")] ["", "junk", "host=a=b"] :=
    .idle (by decide) (by decide) (.idle (by decide) (by decide) host)
  have spelled : Spells entries segments :=
    @Spells.entry _ _ "keepalive" "60" " " " " " " " " (by decide) (by decide) (by decide)
      (by decide) junk
  exact ⟨distinct, plain, spelled, parse_composes.2 entries segments distinct plain spelled⟩

end EventWorker.Settings
