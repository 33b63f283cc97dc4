import TransformChain.Proofs.Template.Cutting
import TransformChain.Proofs.Text.Bytes

/-!
# Tags found in bytes

Templates can be cut at their tags by looking at single bytes.  A search that steps over two bytes
after a backslash may go on inside a character, and even behind the end of the text.  That it finds
the same tags all the same is a matter of UTF-8: the bytes it meets inside a character are those of
no delimiter, no quote and no backslash.
-/

namespace TransformChain
namespace Template

open Text

/-!
## Searching byte by byte
-/

def opensTag (first : UInt8) (second : Option UInt8) : Bool :=
  first == asciiByte '\x7b' && (second == some (asciiByte '\x7b') ||
    second == some (asciiByte '%') || second == some (asciiByte '#'))

def findOpener (bytes : List UInt8) : Option Nat :=
  (List.range (bytes.length - 1)).find? fun i =>
    bytes[i]?.any fun b => opensTag b bytes[i + 1]?

/-- The offset of the closing delimiter of a tag, looked for from the offset `i` on.  The quote is
that of the string around this place.  In a string the two bytes of a backslash and of what follows
it are stepped over. -/
def findClose (kind : TagKind) (bytes : List UInt8) (quote : Option UInt8) (i : Nat) :
    Option Nat :=
  if h : i < bytes.length then
    match quote with
    | some q =>
        if bytes[i] = asciiByte '\\' then findClose kind bytes (some q) (i + 2)
        else if bytes[i] = q then findClose kind bytes none (i + 1)
        else findClose kind bytes (some q) (i + 1)
    | none =>
        if kind ≠ .comment ∧ (bytes[i] = asciiByte '\'' ∨ bytes[i] = asciiByte '"') then
          findClose kind bytes (some bytes[i]) (i + 1)
        else if bytes[i] = asciiByte kind.closer ∧ bytes[i + 1]? = some (asciiByte '\x7d') then
          some i
        else findClose kind bytes none (i + 1)
  else none
termination_by bytes.length - i

def TagKind.ofDelimiter (delimiter : List Char) : TagKind :=
  if delimiter = ['\x7b', '\x7b'] then .output
  else if delimiter = ['\x7b', '%'] then .block
  else .comment

def dropDash? (cs : List Char) : Option (Bool × List Char) :=
  if cs.head? = some '-' then (splitAtByte? cs 1).map fun parts => (true, parts.2)
  else some (false, cs)

def dropLastDash? (cs : List Char) : Option (Bool × List Char) :=
  if cs.getLast? = some '-' then
    (splitAtByte? cs ((utf8 cs).length - 1)).map fun parts => (true, parts.1)
  else some (false, cs)

/-- Takes a tag off a text that begins with one, cutting the text at byte offsets only. -/
def cutTag? (cs : List Char) : Option (Except SyntaxFault (Tag × List Char)) := do
  let (delimiter, behind) ← splitAtByte? cs 2
  let kind := TagKind.ofDelimiter delimiter
  let (dash, body) ← dropDash? behind
  match findClose kind (utf8 body) none 0 with
  | none => return .error (.unclosedTag (snippet cs))
  | some stop =>
      let (raw, _) ← splitAtByte? body stop
      let (dashAfter, content) ← dropLastDash? raw
      let (_, after) ← splitAtByte? body (stop + 2)
      return .ok (⟨kind, content, dash, dashAfter⟩, after)

/-- Cuts a template at its tags, at byte offsets only.  There is no result where an offset is none
at which the text can be cut, or where the budget of tags is spent. -/
def cutWithin? : Nat → List Char → Option (Except SyntaxFault Scan)
  | 0, _ => none
  | budget + 1, cs =>
      match findOpener (utf8 cs) with
      | none => some (.ok ⟨cs, []⟩)
      | some start => do
          let (text, opened) ← splitAtByte? cs start
          match ← cutTag? opened with
          | .error fault => return .error fault
          | .ok (tag, after) =>
              let scan ← cutWithin? budget after
              return scan.map fun scan => ⟨text, (tag, scan.head) :: scan.tail⟩

def cutOnBytes? (cs : List Char) : Option (Except SyntaxFault Scan) :=
  cutWithin? (cs.length + 1) cs

/-!
## Openers
-/

section Openers

variable {b : UInt8} {bytes : List UInt8} {cs rest : List Char} {c d : Char}

theorem findOpener_cons (b : UInt8) (bytes : List UInt8) :
    findOpener (b :: bytes) =
      if opensTag b bytes.head? then some 0 else (findOpener bytes).map (· + 1) := by
  cases bytes with
  | nil =>
      have hopens : opensTag b none = false := by simp [opensTag]
      simp [findOpener, hopens]
  | cons next bytes =>
      have hfirst : ((b :: next :: bytes)[0]?.any fun c =>
          opensTag c (b :: next :: bytes)[0 + 1]?) = opensTag b (some next) := rfl
      unfold findOpener
      rw [List.length_cons, Nat.add_sub_cancel, List.length_cons, List.range_succ_eq_map,
        List.find?_cons, List.find?_map, hfirst, List.head?_cons]
      cases opensTag b (some next) <;> rfl

theorem opensTag_of_ne (hb : b ≠ asciiByte '\x7b') (next : Option UInt8) :
    opensTag b next = false := by
  simp [opensTag, hb]

theorem findOpener_append {front : List UInt8} (h : ∀ b ∈ front, b ≠ asciiByte '\x7b')
    (bytes : List UInt8) :
    findOpener (front ++ bytes) = (findOpener bytes).map (· + front.length) := by
  induction front with
  | nil => simp
  | cons b front ih =>
      obtain ⟨hb, hfront⟩ := List.forall_mem_cons.mp h
      rw [List.cons_append, findOpener_cons, opensTag_of_ne hb, ih hfront, if_neg (by simp),
        Option.map_map]
      rfl

theorem ne_asciiByte_of_mem (hd : d.toNat < 128) (hne : c ≠ d)
    (hb : b ∈ String.utf8EncodeChar c) : b ≠ asciiByte d := by
  by_cases hc : c.toNat < 128
  · rw [utf8EncodeChar_of_ascii hc, List.mem_singleton] at hb
    rw [hb]
    exact mt (asciiByte_inj hc hd).mp hne
  · have hle := le_of_mem_utf8EncodeChar (Nat.le_of_not_lt hc) hb
    have hlt := asciiByte_lt hd
    intro heq
    rw [heq] at hle
    omega

theorem head?_utf8_eq_iff (hd : d.toNat < 128) :
    (utf8 cs).head? = some (asciiByte d) ↔ cs.head? = some d := by
  cases cs with
  | nil => simp
  | cons c cs =>
      rw [utf8_cons, List.head?_append_of_ne_nil _ String.utf8EncodeChar_ne_nil, List.head?_cons,
        Option.some.injEq]
      constructor
      · intro h
        by_contra hne
        exact ne_asciiByte_of_mem hd hne (List.mem_of_head? h) rfl
      · rintro rfl
        rw [utf8EncodeChar_of_ascii hd]
        rfl

theorem opensTag_utf8 (cs : List Char) :
    opensTag (asciiByte '\x7b') (utf8 cs).head? = (cs.head?.bind TagKind.ofOpener?).isSome := by
  have hhead : ∀ d : Char, d.toNat < 128 →
      ((utf8 cs).head? = some (asciiByte d) ↔ cs.head? = some d) :=
    fun _ hd => head?_utf8_eq_iff hd
  rw [Bool.eq_iff_iff]
  simp only [opensTag, beq_self_eq_true, Bool.true_and, Bool.or_eq_true, beq_iff_eq,
    hhead '\x7b' (by decide), hhead '%' (by decide), hhead '#' (by decide)]
  cases cs with
  | nil => simp
  | cons d cs =>
      simp only [List.head?_cons, Option.some.injEq, Option.bind_some, TagKind.ofOpener?]
      split <;> simp_all
      split <;> simp_all

theorem findOpener_utf8 (cs : List Char) :
    findOpener (utf8 cs) =
      if (breakAtTag cs).2 = [] then none else some (utf8 (breakAtTag cs).1).length := by
  induction cs with
  | nil => rfl
  | cons c cs ih =>
      by_cases hc : c = '\x7b'
      · subst hc
        rw [utf8_cons, utf8EncodeChar_of_ascii (by decide), List.singleton_append, findOpener_cons,
          opensTag_utf8, ih]
        cases cs with
        | nil => rfl
        | cons d cs =>
            by_cases hd : (TagKind.ofOpener? d).isSome
            · have hbreak : breakAtTag ('\x7b' :: d :: cs) = ([], '\x7b' :: d :: cs) := by
                rw [breakAtTag, if_pos ⟨rfl, hd⟩]
              rw [hbreak]
              simp [hd]
            · have hbreak : breakAtTag ('\x7b' :: d :: cs) =
                  ('\x7b' :: (breakAtTag (d :: cs)).1, (breakAtTag (d :: cs)).2) := by
                rw [breakAtTag, if_neg (fun h => hd h.right)]
              rw [hbreak, List.head?_cons, Option.bind_some, if_neg hd]
              split
              · rfl
              · rw [utf8_cons, utf8EncodeChar_of_ascii (by decide)]
                rfl
      · have hfront : ∀ b ∈ String.utf8EncodeChar c, b ≠ asciiByte '\x7b' :=
          fun b hb => ne_asciiByte_of_mem (by decide) hc hb
        rw [utf8_cons, findOpener_append hfront, breakAtTag_cons hc, ih]
        split
        · rfl
        · rw [utf8_cons, List.length_append, Nat.add_comm]
          rfl

end Openers

/-!
## Closing delimiters
-/

def findCloseFrom (kind : TagKind) (quote : Option UInt8) (front rest : List UInt8) : Option Nat :=
  findClose kind (front ++ rest) quote front.length

section Steps

variable {kind : TagKind} {q b : UInt8} {quote : Option UInt8} {front rest : List UInt8}

theorem findCloseFrom_nil : findCloseFrom kind quote front [] = none := by
  unfold findCloseFrom
  rw [findClose, dif_neg (by simp)]

theorem findCloseFrom_some (kind : TagKind) (q b : UInt8) (front rest : List UInt8) :
    findCloseFrom kind (some q) front (b :: rest) =
      if b = asciiByte '\\' then findClose kind (front ++ b :: rest) (some q) (front.length + 2)
      else findCloseFrom kind (if b = q then none else some q) (front ++ [b]) rest := by
  unfold findCloseFrom
  rw [findClose, dif_pos (by simp)]
  simp only [List.getElem_append_right (Nat.le_refl _), Nat.sub_self, List.getElem_cons_zero]
  split
  · rfl
  · split <;> simp

theorem findCloseFrom_none (kind : TagKind) (b : UInt8) (front rest : List UInt8) :
    findCloseFrom kind none front (b :: rest) =
      if kind ≠ .comment ∧ (b = asciiByte '\'' ∨ b = asciiByte '"') then
        findCloseFrom kind (some b) (front ++ [b]) rest
      else if b = asciiByte kind.closer ∧ rest.head? = some (asciiByte '\x7d') then
        some front.length
      else findCloseFrom kind none (front ++ [b]) rest := by
  have hnext : (front ++ b :: rest)[front.length + 1]? = rest.head? := by
    rw [List.getElem?_append_right (Nat.le_add_right _ 1), Nat.add_sub_cancel_left]
    cases rest <;> rfl
  unfold findCloseFrom
  rw [findClose, dif_pos (by simp)]
  simp only [List.getElem_append_right (Nat.le_refl _), Nat.sub_self, List.getElem_cons_zero, hnext,
    List.length_append, List.length_singleton, List.append_assoc, List.singleton_append]

theorem toNat_closer_lt (kind : TagKind) : kind.closer.toNat < 128 := by
  cases kind <;> decide

def IsAsciiQuote (quote : Option UInt8) : Prop :=
  ∀ q, quote = some q → q.toNat < 128

theorem findCloseFrom_high (hquote : IsAsciiQuote quote) {bytes : List UInt8}
    (h : ∀ b ∈ bytes, 128 ≤ b.toNat) (front rest : List UInt8) :
    findCloseFrom kind quote front (bytes ++ rest) =
      findCloseFrom kind quote (front ++ bytes) rest := by
  induction bytes generalizing front with
  | nil => rw [List.nil_append, List.append_nil]
  | cons b bytes ih =>
      obtain ⟨hb, hbytes⟩ := List.forall_mem_cons.mp h
      have hne : ∀ c : Char, c.toNat < 128 → b ≠ asciiByte c := by
        rintro c hc rfl
        have hlt := asciiByte_lt hc
        omega
      have hnext := ih hbytes (front ++ [b])
      rw [List.append_assoc, List.singleton_append] at hnext
      rw [List.cons_append]
      cases quote with
      | none =>
          rw [findCloseFrom_none, if_neg, if_neg, hnext]
          · exact fun hend => hne _ (toNat_closer_lt kind) hend.left
          · rintro ⟨-, hsingle | hdouble⟩
            · exact hne '\'' (by decide) hsingle
            · exact hne '"' (by decide) hdouble
      | some q =>
          have hq : b ≠ q := by
            rintro rfl
            have hlt := hquote b rfl
            omega
          rw [findCloseFrom_some, if_neg (hne '\\' (by decide)), if_neg hq, hnext]

end Steps

/-!
The steps of the search on the characters of a text.
-/

section Characters

variable {kind : TagKind} {quote : Option UInt8} {q c d : Char} {front : List UInt8}
variable {cs : List Char}

theorem findCloseFrom_backslash (q : UInt8) (front : List UInt8) :
    findCloseFrom kind (some q) front (utf8 ['\\']) = none := by
  rw [utf8_cons, utf8_nil, List.append_nil, utf8EncodeChar_of_ascii (by decide),
    findCloseFrom_some, if_pos rfl, findClose, dif_neg (by simp)]

/-- In a string a backslash and the next character are stepped over, though the step over two bytes
ends inside the character if it has more than one. -/
theorem findCloseFrom_hidden (hq : q.toNat < 128) (c : Char) (cs : List Char)
    (front : List UInt8) :
    findCloseFrom kind (some (asciiByte q)) front (utf8 ('\\' :: c :: cs)) =
      findCloseFrom kind (some (asciiByte q)) (front ++ utf8 ['\\', c]) (utf8 cs) := by
  have hquote : IsAsciiQuote (some (asciiByte q)) := by
    rintro _ ⟨⟩
    exact asciiByte_lt hq
  obtain ⟨first, bytes, hbytes⟩ : ∃ first bytes, String.utf8EncodeChar c = first :: bytes :=
    List.exists_cons_of_ne_nil String.utf8EncodeChar_ne_nil
  have hhigh : ∀ b ∈ bytes, 128 ≤ b.toNat := by
    intro b hb
    by_cases hc : c.toNat < 128
    · rw [utf8EncodeChar_of_ascii hc, List.cons.injEq] at hbytes
      rw [← hbytes.right] at hb
      cases hb
    · exact le_of_mem_utf8EncodeChar (Nat.le_of_not_lt hc) (hbytes ▸ List.mem_cons_of_mem first hb)
  have hrest : findCloseFrom kind _ _ _ = _ := findCloseFrom_high hquote hhigh
    (front ++ [asciiByte '\\', first]) (utf8 cs)
  simp only [utf8_cons, utf8_nil, List.append_nil, hbytes,
    utf8EncodeChar_of_ascii (c := '\\') (by decide), List.cons_append, List.nil_append]
  rw [findCloseFrom_some, if_pos rfl]
  unfold findCloseFrom at hrest ⊢
  simpa using hrest

theorem isAsciiQuote_map {quote : Option Char} (hquote : ∀ q, quote = some q → q.toNat < 128) :
    IsAsciiQuote (quote.map asciiByte) := by
  intro b hb
  obtain ⟨q, hq, rfl⟩ := Option.map_eq_some_iff.mp hb
  exact asciiByte_lt (hquote q hq)

theorem findCloseFrom_inside (hq : q.toNat < 128) (hc : c ≠ '\\') (cs : List Char)
    (front : List UInt8) :
    findCloseFrom kind (some (asciiByte q)) front (utf8 (c :: cs)) =
      findCloseFrom kind ((if c = q then none else some q).map asciiByte) (front ++ utf8 [c])
        (utf8 cs) := by
  rw [utf8_cons, utf8_cons, utf8_nil, List.append_nil]
  by_cases hascii : c.toNat < 128
  · rw [utf8EncodeChar_of_ascii hascii, List.singleton_append, findCloseFrom_some,
      if_neg (mt (asciiByte_inj hascii (by decide)).mp hc)]
    by_cases heq : c = q
    · rw [if_pos (congrArg asciiByte heq), if_pos heq]
      rfl
    · rw [if_neg (mt (asciiByte_inj hascii hq).mp heq), if_neg heq]
      rfl
  · have heq : c ≠ q := by
      rintro rfl
      exact hascii hq
    rw [if_neg heq]
    have hquote : IsAsciiQuote ((some q).map asciiByte) :=
      isAsciiQuote_map (by simpa using hq)
    exact findCloseFrom_high hquote
      (fun b hb => le_of_mem_utf8EncodeChar (Nat.le_of_not_lt hascii) hb) front (utf8 cs)

theorem TagKind.Opens.toNat_lt (h : kind.Opens c) : c.toNat < 128 := by
  rcases h.right with rfl | rfl <;> decide

theorem findCloseFrom_opening (hc : kind.Opens c) (cs : List Char) (front : List UInt8) :
    findCloseFrom kind none front (utf8 (c :: cs)) =
      findCloseFrom kind (some (asciiByte c)) (front ++ utf8 [c]) (utf8 cs) := by
  have hbyte : kind ≠ .comment ∧
      (asciiByte c = asciiByte '\'' ∨ asciiByte c = asciiByte '"') :=
    ⟨hc.left, hc.right.imp (congrArg asciiByte) (congrArg asciiByte)⟩
  rw [utf8_cons, utf8_cons, utf8_nil, List.append_nil, utf8EncodeChar_of_ascii hc.toNat_lt,
    List.singleton_append, findCloseFrom_none, if_pos hbyte]

theorem findCloseFrom_closer (kind : TagKind) (cs : List Char) (front : List UInt8) :
    findCloseFrom kind none front (utf8 (kind.closer :: '\x7d' :: cs)) = some front.length := by
  have hplain : ¬(kind ≠ .comment ∧ (asciiByte kind.closer = asciiByte '\'' ∨
      asciiByte kind.closer = asciiByte '"')) := by
    cases kind <;> decide
  rw [utf8_cons, utf8EncodeChar_of_ascii (toNat_closer_lt kind), List.singleton_append,
    findCloseFrom_none, if_neg hplain, if_pos ⟨rfl, (head?_utf8_eq_iff (by decide)).mpr rfl⟩]

theorem findCloseFrom_plain (hc : ¬kind.Opens c)
    (hend : ¬(c = kind.closer ∧ cs.head? = some '\x7d')) (front : List UInt8) :
    findCloseFrom kind none front (utf8 (c :: cs)) =
      findCloseFrom kind none (front ++ utf8 [c]) (utf8 cs) := by
  rw [utf8_cons, utf8_cons, utf8_nil, List.append_nil]
  by_cases hascii : c.toNat < 128
  · rw [utf8EncodeChar_of_ascii hascii, List.singleton_append, findCloseFrom_none, if_neg, if_neg]
    · rintro ⟨hcloser, hbrace⟩
      exact hend ⟨(asciiByte_inj hascii (toNat_closer_lt kind)).mp hcloser,
        (head?_utf8_eq_iff (by decide)).mp hbrace⟩
    · rintro ⟨hkind, hquote⟩
      exact hc ⟨hkind, hquote.imp (asciiByte_inj hascii (by decide)).mp
        (asciiByte_inj hascii (by decide)).mp⟩
  · exact findCloseFrom_high (fun _ h => absurd h (Option.some_ne_none _).symm)
      (fun b hb => le_of_mem_utf8EncodeChar (Nat.le_of_not_lt hascii) hb) front (utf8 cs)

end Characters

/-!
Both searches go the same way, so they stop at the same place.
-/

section Agreement

variable {kind : TagKind} {quote next : Option Char} {c : Char} {cs rest taken : List Char}

def closeOffset (kind : TagKind) (quote : Option Char) (front : List UInt8) (cs : List Char) :
    Option Nat :=
  (closeTag kind quote cs).map fun found => front.length + (utf8 found.1).length

theorem closeOffset_behind {front : List UInt8}
    (hstep : closeTag kind quote cs = (closeTag kind next rest).map (prepend taken)) :
    closeOffset kind quote front cs = closeOffset kind next (front ++ utf8 taken) rest := by
  unfold closeOffset
  rw [hstep, Option.map_map]
  congr 1
  funext found
  simp [prepend, Nat.add_assoc]

theorem closeTag_cons
    (hstep : rest ≠ [] → closeTag kind quote (c :: rest) =
      (closeTag kind next rest).map (prepend [c])) :
    closeTag kind quote (c :: rest) = (closeTag kind next rest).map (prepend [c]) := by
  cases rest with
  | nil => cases quote <;> rfl
  | cons d rest => exact hstep (List.cons_ne_nil d rest)

theorem findCloseFrom_utf8 (quote : Option Char) (hquote : ∀ q, quote = some q → q.toNat < 128)
    (front : List UInt8) (cs : List Char) :
    findCloseFrom kind (quote.map asciiByte) front (utf8 cs) = closeOffset kind quote front cs := by
  -- By recursion on the text, of which a backslash in a string takes two characters at once.
  match quote, cs with
  | none, [] => exact findCloseFrom_nil
  | some quote, [] => exact findCloseFrom_nil
  | none, c :: cs =>
      by_cases hc : kind.Opens c
      · have hrest := findCloseFrom_utf8 (some c) (by simpa using hc.toNat_lt)
          (front ++ utf8 [c]) cs
        rw [closeOffset_behind (closeTag_cons (closeTag_opening hc)), ← hrest]
        exact findCloseFrom_opening hc cs front
      · by_cases hend : c = kind.closer ∧ cs.head? = some '\x7d'
        · obtain ⟨after, rfl⟩ := List.head?_eq_some_iff.mp hend.right
          rw [hend.left, closeOffset, closeTag_closer]
          exact findCloseFrom_closer kind after front
        · have hrest := findCloseFrom_utf8 none hquote (front ++ utf8 [c]) cs
          rw [closeOffset_behind (closeTag_cons (closeTag_plain hc hend)), ← hrest]
          exact findCloseFrom_plain hc hend front
  | some quote, c :: cs =>
      have hq : quote.toNat < 128 := hquote quote rfl
      by_cases hc : c = '\\'
      · subst hc
        cases cs with
        | nil => exact findCloseFrom_backslash _ front
        | cons d cs =>
            have hrest := findCloseFrom_utf8 (some quote) hquote (front ++ utf8 ['\\', d]) cs
            rw [closeOffset_behind (closeTag_hidden kind quote d cs), ← hrest]
            exact findCloseFrom_hidden hq d cs front
      · have hnext : ∀ q, (if c = quote then none else some quote) = some q → q.toNat < 128 := by
          intro q h
          split at h
          · cases h
          · exact hquote q h
        have hrest := findCloseFrom_utf8 _ hnext (front ++ utf8 [c]) cs
        rw [closeOffset_behind (closeTag_cons (closeTag_inside hc)), ← hrest]
        exact findCloseFrom_inside hq hc cs front
termination_by cs.length

theorem findClose_utf8 (kind : TagKind) (body : List Char) :
    findClose kind (utf8 body) none 0 =
      (closeTag kind none body).map fun found => (utf8 found.1).length := by
  have hfrom : findCloseFrom kind _ _ _ = _ :=
    findCloseFrom_utf8 none (fun _ h => absurd h (Option.some_ne_none _).symm) [] body
  simpa [findCloseFrom, closeOffset] using hfrom

end Agreement

/-!
## Cutting at byte offsets
-/

section Cutting

variable {kind : TagKind} {cs front back rest : List Char} {offset : Nat}

theorem splitAtByte?_of_eq (h : cs = front ++ back) (hoffset : offset = (utf8 front).length) :
    splitAtByte? cs offset = some (front, back) :=
  splitAtByte?_eq_some_iff.mpr ⟨h, hoffset⟩

theorem TagKind.ofDelimiter_opener (kind : TagKind) :
    TagKind.ofDelimiter ['\x7b', kind.opener] = kind := by
  cases kind <;> rfl

theorem dropDash?_eq (cs : List Char) : dropDash? cs = some (takeDash cs) := by
  unfold dropDash?
  by_cases hdash : cs.head? = some '-'
  · obtain ⟨rest, rfl⟩ := List.head?_eq_some_iff.mp hdash
    have hsplit : splitAtByte? ('-' :: rest) 1 = some (['-'], rest) := splitAtByte?_of_eq rfl rfl
    rw [if_pos hdash, hsplit]
    rfl
  · rw [if_neg hdash, takeDash_of_head? hdash]

theorem dropLastDash?_eq (raw : List Char) :
    ∃ dashAfter content, dropLastDash? raw = some (dashAfter, content) ∧
      ∀ kind dash, Tag.ofRaw kind dash raw = ⟨kind, content, dash, dashAfter⟩ := by
  unfold dropLastDash? Tag.ofRaw
  by_cases hdash : raw.getLast? = some '-'
  · have hraw : raw = raw.dropLast ++ ['-'] := (List.dropLast_append_getLast? '-' hdash).symm
    have hoffset : (utf8 raw).length - 1 = (utf8 raw.dropLast).length := by
      have hlength := congrArg (fun cs => (utf8 cs).length) hraw
      simp only [utf8_append, List.length_append] at hlength
      have hsingle : (utf8 ['-']).length = 1 := rfl
      omega
    refine ⟨true, raw.dropLast, ?_, fun kind dash => if_pos hdash⟩
    rw [if_pos hdash, splitAtByte?_of_eq hraw hoffset]
    rfl
  · exact ⟨false, raw, if_neg hdash, fun kind dash => if_neg hdash⟩

theorem cutTag?_opener (kind : TagKind) (cs : List Char) :
    cutTag? ('\x7b' :: kind.opener :: cs) = some (match readTag kind cs with
      | some found => .ok found
      | none => .error (.unclosedTag (snippet ('\x7b' :: kind.opener :: cs)))) := by
  have hdelimiter : splitAtByte? ('\x7b' :: kind.opener :: cs) 2 =
      some (['\x7b', kind.opener], cs) := by
    refine splitAtByte?_of_eq rfl ?_
    cases kind <;> rfl
  unfold cutTag? readTag
  simp only [hdelimiter, Option.bind_eq_bind, Option.bind_some, TagKind.ofDelimiter_opener,
    dropDash?_eq, findClose_utf8]
  cases hclose : closeTag kind none (takeDash cs).2 with
  | none => rfl
  | some found =>
      obtain ⟨raw, after⟩ := found
      have hbody : (takeDash cs).2 = raw ++ kind.closer :: '\x7d' :: after := eq_of_closeTag hclose
      have hstop : splitAtByte? (takeDash cs).2 (utf8 raw).length =
          some (raw, kind.closer :: '\x7d' :: after) := splitAtByte?_of_eq hbody rfl
      have hafter : splitAtByte? (takeDash cs).2 ((utf8 raw).length + 2) =
          some (raw ++ [kind.closer, '\x7d'], after) := by
        refine splitAtByte?_of_eq (by rw [hbody, List.append_assoc]; rfl) ?_
        rw [utf8_append, List.length_append]
        cases kind <;> rfl
      obtain ⟨dashAfter, content, hlast, htag⟩ := dropLastDash?_eq raw
      simp only [Option.map_some, hstop, Option.bind_some, hlast, hafter, htag]
      rfl

theorem cutWithin?_eq_read (budget : Nat) (cs : List Char) (hbudget : cs.length < budget) :
    cutWithin? budget cs = some (Scan.read budget cs) := by
  induction budget generalizing cs with
  | zero => exact absurd hbudget (Nat.not_lt_zero _)
  | succ budget ih =>
      unfold cutWithin?
      rw [findOpener_utf8]
      rcases holdsNoOpener_or_opener cs with hplain | ⟨front, kind, rest, rfl, hfront⟩
      · rw [Scan.read_text hplain, breakAtTag_eq_self hplain]
        rfl
      · have hcut : splitAtByte? (front ++ '\x7b' :: kind.opener :: rest) (utf8 front).length =
            some (front, '\x7b' :: kind.opener :: rest) := splitAtByte?_append front _
        rw [hfront.breakAtTag_eq]
        simp only [List.cons_ne_nil, if_false, hcut, Option.bind_eq_bind, Option.bind_some,
          cutTag?_opener]
        cases hread : readTag kind rest with
        | none => rw [Scan.read_unclosed hfront hread]; rfl
        | some found =>
            obtain ⟨tag, after⟩ := found
            have hshorter := (readTag_eq_some_iff.mp hread).length_lt
            rw [List.length_append] at hbudget
            have hlater := ih after (by omega)
            rw [Scan.read_tag hfront hread]
            simp only [hlater, Option.bind_some]
            rfl

theorem cutOnBytes?_eq (cs : List Char) : cutOnBytes? cs = some (Scan.ofChars cs) := by
  unfold cutOnBytes?
  rw [cutWithin?_eq_read _ cs (Nat.lt_succ_self _), Scan.read_eq_ofChars (Nat.le_succ _)]

end Cutting

/-- Looking at bytes and looking at characters finds the same tags: the search for a closing
delimiter and the search for an opener stop at the same place, and cutting a template at the offsets
found in its bytes never meets an offset inside a character or behind the end, and gives the same
parts.  Nor does taking the white space off the end of a text in front of a tag. -/
theorem byte_search_agrees :
    (∀ s : String, utf8 s.toList = s.toUTF8.data.toList ∧
      ∀ offset, (splitAtByte? s.toList offset).isSome = true ↔
        (⟨offset⟩ : String.Pos.Raw).IsValid s) ∧
    (∀ kind body, findClose kind (utf8 body) none 0 =
      (closeTag kind none body).map fun found => (utf8 found.1).length) ∧
    (∀ cs, findOpener (utf8 cs) =
      if (breakAtTag cs).2 = [] then none else some (utf8 (breakAtTag cs).1).length) ∧
    (∀ source, cutOnBytes? source = some (Scan.ofChars source)) ∧
    ∀ text, ∃ blank, (∀ c ∈ blank, isBlank c = true) ∧
      splitAtByte? text (utf8 (trimEnd text)).length = some (trimEnd text, blank) := by
  refine ⟨fun s => ⟨utf8_toList s, isSome_splitAtByte?_iff s⟩, findClose_utf8, findOpener_utf8,
    cutOnBytes?_eq, fun text => ?_⟩
  refine ⟨(text.reverse.takeWhile isBlank).reverse, ?_, splitAtByte?_of_eq ?_ rfl⟩
  · exact fun c hc => List.mem_takeWhile_imp (List.mem_reverse.mp hc)
  · unfold trimEnd
    rw [← List.reverse_append, List.takeWhile_append_dropWhile, List.reverse_reverse]

/-- A backslash in front of a character of three bytes, and one in front of the closing quote. -/
example : findClose .block (utf8 " set s = '\\\u20ac\\'%\x7d' %\x7d".toList) none 0 = some 20 := by
  cbv

end Template
end TransformChain
