import TransformChain.Dataset
import TransformChain.Proofs.Text.Identifiers
import TransformChain.Proofs.Text.Splitting

/-!
# Reading and writing table names

A dotted name is read as its parts exactly if each of them is well formed, and is written as what
was read but for the white space around it.  A partial name is completed to the name that it ends,
with the parts of the namespace in front.
-/

namespace TransformChain

/-!
## Parts of dotted names
-/

/-- A part of a dotted name is not empty and holds neither dots nor white space. -/
def IsNamePart (part : String) : Prop :=
  part ≠ "" ∧ ∀ c ∈ part.toList, c ≠ '.' ∧ Text.isBlank c = false

section Parts

variable {part : String} {parts : List String} {cs : List Char}

theorem IsNamePart.dotless (h : IsNamePart part) : '.' ∉ part.toList :=
  fun hdot => (h.right '.' hdot).left rfl

theorem IsNamePart.of_isIdentifier (h : Text.isIdentifier part = true) : IsNamePart part := by
  refine ⟨Text.ne_empty_of_isIdentifier h, fun c hc => ?_⟩
  have hchar := Text.isIdentifierChar_of_mem h hc
  refine ⟨?_, Text.isBlank_of_isIdentifierChar hchar⟩
  rintro rfl
  exact absurd hchar (by decide)

theorem nameParts?_eq_some_iff :
    nameParts? cs = some parts ↔
      parts ≠ [] ∧ (∀ part ∈ parts, IsNamePart part) ∧ (Text.join "." parts).toList = cs := by
  have hgood : ∀ part : List Char,
      (!part.isEmpty && part.all (fun c => !Text.isBlank c)) = true ↔
        part ≠ [] ∧ ∀ c ∈ part, Text.isBlank c = false := by
    intro part
    simp
  unfold nameParts?
  simp only [List.all_eq_true, hgood]
  constructor
  · intro h
    split at h
    case isFalse => cases h
    case isTrue hall =>
      rw [Option.some.injEq] at h
      rw [← h]
      refine ⟨?_, ?_, Text.join_splitChar '.' cs⟩
      · rcases Text.exists_splitChar '.' cs with ⟨first, rest, hsplit⟩
        rw [hsplit]
        exact List.cons_ne_nil _ _
      · intro part hpart
        rcases List.mem_map.mp hpart with ⟨inside, hinside, rfl⟩
        obtain ⟨hne, hblank⟩ := hall inside hinside
        unfold IsNamePart
        rw [← String.toList_inj.ne, String.toList_ofList]
        refine ⟨hne, fun c hc => ⟨?_, hblank c hc⟩⟩
        rintro rfl
        exact Text.notMem_of_mem_splitChar hinside hc
  · rintro ⟨hne, hparts, rfl⟩
    have hsplit : Text.splitChar '.' (Text.join "." parts).toList = parts.map String.toList :=
      Text.splitChar_join hne fun part hpart => (hparts part hpart).dotless
    rw [hsplit, if_pos]
    · simp
    · intro inside hinside
      rcases List.mem_map.mp hinside with ⟨part, hpart, rfl⟩
      obtain ⟨hne, hchars⟩ := hparts part hpart
      exact ⟨fun hnil => hne (String.toList_eq_nil_iff.mp hnil), fun c hc => (hchars c hc).right⟩

theorem isBlank_of_mem_join (h : ∀ part ∈ parts, IsNamePart part) {c : Char}
    (hc : c ∈ (Text.join "." parts).toList) : Text.isBlank c = false := by
  cases parts with
  | nil => cases hc
  | cons first rest =>
      obtain ⟨hfirst, hrest⟩ := List.forall_mem_cons.mp h
      rw [Text.toList_join_cons] at hc
      rcases List.mem_append.mp hc with hmem | hmem
      · exact (hfirst.right c hmem).right
      · rcases List.mem_flatMap.mp hmem with ⟨part, hpart, hmem⟩
        rw [String.toList_append, List.mem_append] at hmem
        rcases hmem with hdot | hmem
        · rw [List.mem_singleton.mp hdot]
          decide
        · exact ((hrest part hpart).right c hmem).right

theorem trim_join_parts (hne : parts ≠ []) (h : ∀ part ∈ parts, IsNamePart part) :
    Text.trim (Text.join "." parts) = Text.join "." parts := by
  apply Text.trim_of_isSolid
  apply Text.isSolid_of_forall
  · rw [Ne, Text.join_eq_empty_iff (by decide), not_or]
    refine ⟨hne, ?_⟩
    rintro rfl
    exact (h "" List.mem_cons_self).left rfl
  · exact fun c hc => isBlank_of_mem_join h hc

theorem nameParts?_trimChars_iff {text : String} (hne : parts ≠ []) :
    nameParts? (Text.trimChars text.toList) = some parts ↔
      (∀ part ∈ parts, IsNamePart part) ∧ Text.join "." parts = Text.trim text := by
  rw [nameParts?_eq_some_iff, ← String.toList_inj, Text.trim, String.toList_ofList]
  exact and_iff_right hne

end Parts

/-!
## Namespaces
-/

namespace Namespace

structure IsProper (ns : Namespace) : Prop where
  database : IsNamePart ns.database
  schema : IsNamePart ns.schema

theorem parse_eq_ok_iff {text : String} {ns : Namespace} :
    parse text = .ok ns ↔ ns.IsProper ∧ ns.display = Text.trim text := by
  have hparts : parse text = .ok ns ↔
      nameParts? (Text.trimChars text.toList) = some [ns.database, ns.schema] := by
    unfold parse
    split
    case h_1 database schema hread =>
      rw [hread, Except.ok.injEq]
      cases ns
      simp
    case h_2 hother =>
      constructor
      · exact fun h => nomatch h
      · exact fun h => absurd h (hother _ _)
  rw [hparts, nameParts?_trimChars_iff (List.cons_ne_nil _ _), display, Text.join, Text.join]
  apply and_congr_left'
  simp only [List.forall_mem_cons]
  constructor
  · exact fun h => ⟨h.left, h.right.left⟩
  · exact fun h => ⟨h.database, h.schema, fun _ hnil => absurd hnil List.not_mem_nil⟩

end Namespace

/-!
## Full names
-/

namespace TableName

variable {text : String} {name : TableName}

structure IsProper (name : TableName) : Prop where
  database : IsNamePart name.database
  schema : IsNamePart name.schema
  table : IsNamePart name.table

theorem isProper_iff :
    name.IsProper ↔ ∀ part ∈ [name.database, name.schema, name.table], IsNamePart part := by
  simp only [List.forall_mem_cons]
  constructor
  · exact fun h => ⟨h.database, h.schema, h.table, fun _ hnil => absurd hnil List.not_mem_nil⟩
  · exact fun h => ⟨h.left, h.right.left, h.right.right.left⟩

theorem display_eq_join (name : TableName) :
    name.display = Text.join "." [name.database, name.schema, name.table] := by
  simp only [display, Text.join, String.append_assoc]

/-- The names that are read are the proper ones, each from its own text and nothing else but white
space around it. -/
theorem parse_eq_ok_iff :
    parse text = .ok name ↔ name.IsProper ∧ name.display = Text.trim text := by
  have hparts : parse text = .ok name ↔
      nameParts? (Text.trimChars text.toList) =
        some [name.database, name.schema, name.table] := by
    unfold parse
    split
    case h_1 database schema table hread =>
      rw [hread, Except.ok.injEq]
      cases name
      simp
    case h_2 hother =>
      constructor
      · exact fun h => nomatch h
      · exact fun h => absurd h (hother _ _ _)
  rw [hparts, nameParts?_trimChars_iff (List.cons_ne_nil _ _), ← isProper_iff, display_eq_join]

theorem IsProper.trim_display (h : name.IsProper) : Text.trim name.display = name.display := by
  rw [display_eq_join]
  exact trim_join_parts (List.cons_ne_nil _ _) (isProper_iff.mp h)

theorem IsProper.parse_display (h : name.IsProper) : parse name.display = .ok name :=
  parse_eq_ok_iff.mpr ⟨h, h.trim_display.symm⟩

theorem parse_display_iff : parse name.display = .ok name ↔ name.IsProper :=
  ⟨fun h => (parse_eq_ok_iff.mp h).left, IsProper.parse_display⟩

theorem isProper_table_iff {ns : Namespace} (hns : ns.IsProper) {part : String} :
    (ns.table part).IsProper ↔ IsNamePart part :=
  ⟨IsProper.table, fun h => ⟨hns.database, hns.schema, h⟩⟩

theorem IsProper.namespaceOf (h : name.IsProper) : name.namespaceOf.IsProper :=
  ⟨h.database, h.schema⟩

theorem IsProper.count_display (h : name.IsProper) : name.display.toList.count '.' = 2 := by
  have hdatabase := List.count_eq_zero.mpr h.database.dotless
  have hschema := List.count_eq_zero.mpr h.schema.dotless
  have htable := List.count_eq_zero.mpr h.table.dotless
  simp [display, List.count_append, hdatabase, hschema, htable]

/-!
## Partial names
-/

def SameName (result other : Except Error TableName) : Prop :=
  ∀ name, result = .ok name ↔ other = .ok name

/-- The parts of the namespace that a text with this many dots lacks, in front of the text. -/
def candidate (ns : Namespace) (text : String) : Nat → String
  | 0 => ns.database ++ "." ++ ns.schema ++ "." ++ text
  | 1 => ns.database ++ "." ++ text
  | _ => text

theorem parse_trim (text : String) : SameName (parse (Text.trim text)) (parse text) := by
  intro name
  rw [parse_eq_ok_iff, parse_eq_ok_iff, Text.trim_trim]

theorem count_of_parse (h : parse text = .ok name) :
    (Text.trim text).toList.count '.' = 2 := by
  obtain ⟨hproper, hdisplay⟩ := parse_eq_ok_iff.mp h
  rw [← hdisplay]
  exact hproper.count_display

theorem complete_none (text : String) : SameName (complete text none) (parse text) := by
  intro name
  unfold complete
  simp only
  by_cases hcount : (Text.trim text).toList.count '.' = 2
  · rw [if_pos hcount]
    exact parse_trim text name
  · rw [if_neg hcount]
    constructor
    · exact fun h => nomatch h
    · exact fun h => absurd (count_of_parse h) hcount

theorem complete_some (text : String) (ns : Namespace) :
    SameName (complete text (some ns))
      (parse (candidate ns (Text.trim text) ((Text.trim text).toList.count '.'))) := by
  intro name
  unfold complete
  simp only
  generalize (Text.trim text).toList.count '.' = dots
  by_cases hdots : dots = 2
  · rw [if_pos hdots, hdots]
    rfl
  · rw [if_neg hdots]
    split
    case h_1 found hread =>
      change parse (candidate ns (Text.trim text) dots) = .ok found at hread
      rw [hread]
    case h_2 reason hread =>
      change parse (candidate ns (Text.trim text) dots) = .error reason at hread
      rw [hread]
      simp

theorem splitChar_display
    (h : ∀ part ∈ [name.database, name.schema, name.table], '.' ∉ part.toList) :
    Text.splitChar '.' name.display.toList =
      [name.database, name.schema, name.table].map String.toList := by
  rw [display_eq_join]
  exact Text.splitChar_join (List.cons_ne_nil _ _) h

theorem eq_of_display {other : TableName}
    (hname : ∀ part ∈ [name.database, name.schema, name.table], '.' ∉ part.toList)
    (hother : ∀ part ∈ [other.database, other.schema, other.table], '.' ∉ part.toList)
    (h : name.display = other.display) : name = other := by
  have hsplit := splitChar_display hname
  rw [h, splitChar_display hother] at hsplit
  cases name
  cases other
  simpa [eq_comm, String.toList_inj] using hsplit

theorem trim_candidate {ns : Namespace} (hns : ns.IsProper) (text : String) (dots : Nat) :
    Text.trim (candidate ns (Text.trim text) dots) = candidate ns (Text.trim text) dots := by
  have hbehind : ∀ parts : List String, (∀ part ∈ parts, IsNamePart part) →
      Text.trim (Text.join "." parts ++ "." ++ Text.trim text) =
        Text.join "." parts ++ "." ++ Text.trim text := by
    intro parts hparts
    apply Text.trim_append_trim
    · simp [String.append_eq_empty_iff]
    · intro c hc
      rw [String.toList_append, List.mem_append] at hc
      rcases hc with hmem | hdot
      · exact isBlank_of_mem_join hparts hmem
      · rw [List.mem_singleton.mp hdot]
        decide
  match dots with
  | 0 =>
      exact hbehind [ns.database, ns.schema]
        (List.forall_mem_cons.mpr ⟨hns.database, List.forall_mem_singleton.mpr hns.schema⟩)
  | 1 => exact hbehind [ns.database] (List.forall_mem_singleton.mpr hns.database)
  | n + 2 => exact Text.trim_trim text

/-- A name is completed from its whole text or from an end of it, the parts in front being those of
the namespace. -/
theorem complete_eq_ok_iff {ns : Namespace} (hns : ns.IsProper) :
    complete text (some ns) = .ok name ↔ name.IsProper ∧
      (Text.trim text = name.display ∨
        name.database = ns.database ∧ Text.trim text = name.schema ++ "." ++ name.table ∨
        name.namespaceOf = ns ∧ Text.trim text = name.table) := by
  rw [complete_some, parse_eq_ok_iff, trim_candidate hns]
  refine and_congr_right fun hproper => ?_
  constructor
  · intro hdisplay
    match hcount : (Text.trim text).toList.count '.' with
    | 0 =>
        rw [hcount] at hdisplay
        have heq : name = ⟨ns.database, ns.schema, Text.trim text⟩ := by
          refine eq_of_display ?_ ?_ hdisplay
          · exact fun part hpart => (isProper_iff.mp hproper part hpart).dotless
          · simp only [List.forall_mem_cons]
            exact ⟨hns.database.dotless, hns.schema.dotless, List.count_eq_zero.mp hcount, nofun⟩
        rw [heq]
        exact Or.inr (Or.inr ⟨rfl, rfl⟩)
    | 1 =>
        rw [hcount] at hdisplay
        have hlists : name.database.toList ++ '.' :: (name.schema ++ "." ++ name.table).toList =
            ns.database.toList ++ '.' :: (Text.trim text).toList := by
          have hlist := congrArg String.toList hdisplay
          simpa [display, candidate] using hlist
        obtain ⟨hdatabase, hrest⟩ := Text.split_firstSeparator hproper.database.dotless
          hns.database.dotless hlists
        exact Or.inr (Or.inl ⟨String.toList_inj.mp hdatabase, (String.toList_inj.mp hrest).symm⟩)
    | n + 2 =>
        rw [hcount] at hdisplay
        exact Or.inl hdisplay.symm
  · have hschema := List.count_eq_zero.mpr hproper.schema.dotless
    have htable := List.count_eq_zero.mpr hproper.table.dotless
    rintro (htext | ⟨hdatabase, htext⟩ | ⟨rfl, htext⟩)
    · rw [htext, hproper.count_display]
      rfl
    · have hcount : (name.schema ++ "." ++ name.table).toList.count '.' = 1 := by
        simp [List.count_append, hschema, htable]
      rw [htext, hcount, candidate, ← hdatabase]
      simp only [display, String.append_assoc]
    · rw [htext, htable]
      rfl

/-!
## Reading what was written
-/

/-- Reading a name and writing it are inverse to each other: a text is read exactly if it consists
of three well-formed parts and two dots, with white space around it, and is written as it was read
without that white space; and every name that was read at all, from a full or a partial text, is
read from what is written for it.  A partial text is completed with what it lacks of the namespace,
and read as the full name that this gives; without a namespace only full names are read. -/
theorem reads_what_is_written :
    (∀ text, (∃ name, parse text = .ok name) ↔
      ∃ database schema table, IsNamePart database ∧ IsNamePart schema ∧ IsNamePart table ∧
        Text.trim text = database ++ "." ++ schema ++ "." ++ table) ∧
    (∀ text name, parse text = .ok name → name.display = Text.trim text) ∧
    (∀ text name, (parse text = .ok name ∨ ∃ ns, complete text ns = .ok name) →
      parse name.display = .ok name) ∧
    (∀ namespaceText ns, Namespace.parse namespaceText = .ok ns → ∀ text,
      ((Text.trim text).toList.count '.' = 0 → SameName (complete text (some ns))
        (parse (ns.database ++ "." ++ ns.schema ++ "." ++ Text.trim text))) ∧
      ((Text.trim text).toList.count '.' = 1 → SameName (complete text (some ns))
        (parse (ns.database ++ "." ++ Text.trim text))) ∧
      (2 ≤ (Text.trim text).toList.count '.' → SameName (complete text (some ns))
        (parse (Text.trim text))) ∧
      ∀ name, complete text (some ns) = .ok name ↔ name.IsProper ∧
        (Text.trim text = name.display ∨
          name.database = ns.database ∧ Text.trim text = name.schema ++ "." ++ name.table ∨
          name.namespaceOf = ns ∧ Text.trim text = name.table)) ∧
    ∀ text, SameName (complete text none) (parse text) := by
  have hproper : ∀ {text : String} {name : TableName},
      (parse text = .ok name ∨ ∃ ns, complete text ns = .ok name) → name.IsProper := by
    rintro text name (hread | ⟨ns, hread⟩)
    · exact (parse_eq_ok_iff.mp hread).left
    · cases ns with
      | none => exact (parse_eq_ok_iff.mp ((complete_none text name).mp hread)).left
      | some ns => exact (parse_eq_ok_iff.mp ((complete_some text ns name).mp hread)).left
  refine ⟨?_, fun text name hread => (parse_eq_ok_iff.mp hread).right,
    fun text name hread => (hproper hread).parse_display, ?_, complete_none⟩
  · intro text
    constructor
    · rintro ⟨name, hread⟩
      obtain ⟨hparts, hdisplay⟩ := parse_eq_ok_iff.mp hread
      exact ⟨name.database, name.schema, name.table, hparts.database, hparts.schema, hparts.table,
        hdisplay.symm⟩
    · rintro ⟨database, schema, table, hdatabase, hschema, htable, htext⟩
      exact ⟨⟨database, schema, table⟩,
        parse_eq_ok_iff.mpr ⟨⟨hdatabase, hschema, htable⟩, htext.symm⟩⟩
  · intro namespaceText ns hns text
    have hcomplete := complete_some text ns
    refine ⟨?_, ?_, ?_, fun name => complete_eq_ok_iff (Namespace.parse_eq_ok_iff.mp hns).left⟩
    · intro hcount
      rw [hcount] at hcomplete
      exact hcomplete
    · intro hcount
      rw [hcount] at hcomplete
      exact hcomplete
    · intro hcount
      rcases Nat.exists_eq_add_of_le' hcount with ⟨more, hmore⟩
      rw [hmore] at hcomplete
      exact hcomplete

theorem staging_orders_completed :
    Namespace.parse "ANALYTICS.PUBLIC" = .ok ⟨"ANALYTICS", "PUBLIC"⟩ ∧
      complete " STAGING.ORDERS\u00a0" (some ⟨"ANALYTICS", "PUBLIC"⟩) =
        .ok ⟨"ANALYTICS", "STAGING", "ORDERS"⟩ ∧
      parse "ANALYTICS.STAGING.ORDERS" = .ok ⟨"ANALYTICS", "STAGING", "ORDERS"⟩ := by
  have hns : Namespace.parse "ANALYTICS.PUBLIC" = .ok ⟨"ANALYTICS", "PUBLIC"⟩ := by
    decide +kernel
  have htrim : Text.trim " STAGING.ORDERS\u00a0" = "STAGING.ORDERS" := by decide +kernel
  have hproper : IsProper ⟨"ANALYTICS", "STAGING", "ORDERS"⟩ :=
    ⟨.of_isIdentifier (by decide +kernel), .of_isIdentifier (by decide +kernel),
      .of_isIdentifier (by decide +kernel)⟩
  obtain ⟨-, -, hwritten, hcompleted, -⟩ := reads_what_is_written
  have hread : complete " STAGING.ORDERS\u00a0" (some ⟨"ANALYTICS", "PUBLIC"⟩) =
      .ok ⟨"ANALYTICS", "STAGING", "ORDERS"⟩ :=
    ((hcompleted _ _ hns _).right.right.right _).mpr
      ⟨hproper, Or.inr (Or.inl ⟨rfl, htrim⟩)⟩
  exact ⟨hns, hread, hwritten _ _ (Or.inr ⟨_, hread⟩)⟩

end TableName

def Dataset.WellNamed : Dataset → Prop
  | .table name _ => ∃ text, TableName.parse text = .ok name
  | .query _ _ _ => True

end TransformChain
