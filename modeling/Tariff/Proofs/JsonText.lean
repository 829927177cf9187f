import Mathlib.Data.List.TakeDrop
import Tariff.Json.Printer
import Tariff.Json.Reader
import Tariff.Proofs.Numerals

/-!
# JSON comes back from its text

The compact text of a value is read by a reader that knows nothing of how it was written. It
takes a value from the front of a text and leaves the rest, so what there is to show is that
**each value takes its own text and no more** (`Json.IsPlain.readsBack`). Strings and
containers end where they say they end. A number does not say so: it ends where something
follows that cannot belong to it, which after a value is a comma, a closing bracket, or nothing
(`Json.EndsValue`).

The values are plain ones (`Json.IsPlain`): the members of an object stand in the order of their
keys, in which a reader puts them, and numbers are integers. A binary floating-point number is
written with as few digits as tell it from its neighbours, and that these are read as the same
number is a matter of rounding, not of texts.

A reader may spend only so much, a little on each token and on each character of a string. **The
length of a text is enough** to read it, since each token has a character at least.
-/

namespace Tariff

namespace Json

/-! ## Strings -/

/-- A digit of sixteen is read as its number. -/
theorem hexValue?_hexDigit (n : ℕ) : Text.hexValue? (hexDigit n) = some (n % 16) := by
  have hdigit : ∀ n < 16, Text.hexValue? n.digitChar = some n := by decide
  exact hdigit (n % 16) (Nat.mod_lt n (by decide))

/-- A control character is read from its number. -/
theorem readEscape_control {c : Char} (h : c.toNat < 32) (rest : List Char) :
    readEscape ('u' :: '0' :: '0' :: hexDigit (c.toNat / 16) :: hexDigit c.toNat :: rest)
      = some (c, rest) := by
  have hzero : Text.hexValue? '0' = some 0 := rfl
  have hhex : readHex4 ('0' :: '0' :: hexDigit (c.toNat / 16) :: hexDigit c.toNat :: rest)
      = some (c.toNat, rest) := by
    simp only [readHex4, hzero, hexValue?_hexDigit, Option.bind_eq_bind, Option.bind_some,
      Option.some.injEq, Prod.mk.injEq, and_true]
    omega
  have hscalar : Text.scalar? c.toNat = some c := by
    unfold Text.scalar?
    rw [if_pos (show c.toNat.isValidChar from c.valid), Char.ofNat_toNat]
  simp only [readEscape, hhex, Option.bind_eq_bind, Option.bind_some]
  rw [if_neg (by omega), hscalar]
  rfl

/-- After a backslash an escape sequence is read. -/
theorem readString_backslash {c : Char} {cs rest : List Char} (h : readEscape cs = some (c, rest))
    (fuel : ℕ) : readString (fuel + 1) ('\\' :: cs)
      = (readString fuel rest).map (Prod.map (c :: ·) id) := by
  rw [readString, if_neg (by decide), if_pos rfl, h, Option.bind_eq_bind, Option.bind_some]
  dsimp only
  cases readString fuel rest <;> rfl

/-- **A character of a string is read from what it was written as.** -/
theorem readString_escapeChar (fuel : ℕ) (c : Char) (rest : List Char) :
    readString (fuel + 1) (escapeChar c ++ rest)
      = (readString fuel rest).map (Prod.map (c :: ·) id) := by
  unfold escapeChar
  -- Seven characters have a letter or a mark of their own.
  iterate 7
    split
    · next h =>
      subst h
      exact readString_backslash rfl fuel
  split
  · next h => exact readString_backslash (readEscape_control h rest) fuel
  · next hquote hbackslash _ _ _ _ _ hcontrol =>
    rw [List.singleton_append, readString, if_neg hquote, if_neg hbackslash, if_neg hcontrol]
    cases readString fuel rest <;> rfl

/-- **A string is read up to its end.** Written characters never contain a bare quotation mark, so
that the first one is the end; and each character takes at most one unit of the fuel, of which there
is one more than there are characters. -/
theorem readString_flatMap {fuel : ℕ} {cs : List Char} (h : cs.length < fuel) (rest : List Char) :
    readString fuel (cs.flatMap escapeChar ++ '\x22' :: rest) = some (cs, rest) := by
  induction cs generalizing fuel with
  | nil =>
    obtain ⟨fuel, rfl⟩ := Nat.exists_eq_succ_of_ne_zero (by omega : fuel ≠ 0)
    rfl
  | cons c cs ih =>
    obtain ⟨fuel, rfl⟩ := Nat.exists_eq_succ_of_ne_zero (by omega : fuel ≠ 0)
    rw [List.length_cons] at h
    rw [List.flatMap_cons, List.append_assoc, readString_escapeChar, ih (by omega)]
    rfl

/-! ## Numbers -/

/-- **What may follow a value** in a text: the end of it, a comma, or a closing bracket. A number is
read as far as it goes, so it has to be known that it does not go on in what follows. -/
def EndsValue (rest : List Char) : Prop :=
  ∀ c ∈ rest.head?, c = ',' ∨ c = ']' ∨ c = '\x7d'

theorem endsValue_nil : EndsValue [] := nofun

theorem endsValue_cons {c : Char} (h : c = ',' ∨ c = ']' ∨ c = '\x7d') (rest : List Char) :
    EndsValue (c :: rest) := by
  rintro _ ⟨⟩
  exact h

/-- **Digits are read up to what may follow**, since none of what may follow is a digit. -/
theorem spanDigits_append {digits rest : List Char} (hdigits : ∀ c ∈ digits, c.isDigit = true)
    (h : EndsValue rest) : spanDigits (digits ++ rest) = (digits, rest) := by
  have hstop : rest.takeWhile Char.isDigit = [] ∧ rest.dropWhile Char.isDigit = rest := by
    cases rest with
    | nil => exact ⟨rfl, rfl⟩
    | cons c rest =>
      have hc : c.isDigit = false := by
        obtain rfl | rfl | rfl := h c rfl <;> rfl
      exact ⟨List.takeWhile_cons_of_neg (by simp [hc]), List.dropWhile_cons_of_neg (by simp [hc])⟩
  unfold spanDigits
  rw [List.span_eq_takeWhile_dropWhile, List.takeWhile_append_of_pos hdigits,
    List.dropWhile_append_of_pos hdigits, hstop.1, hstop.2, List.append_nil]

/-- There is no fraction, -/
theorem readFraction_of_endsValue {rest : List Char} (h : EndsValue rest) :
    readFraction rest = some (none, rest) := by
  cases rest with
  | nil => rfl
  | cons c rest => obtain rfl | rfl | rfl := h c rfl <;> rfl

/-- and no exponent. -/
theorem readExponent_of_endsValue {rest : List Char} (h : EndsValue rest) :
    readExponent rest = some (none, rest) := by
  cases rest with
  | nil => rfl
  | cons c rest => obtain rfl | rfl | rfl := h c rfl <;> rfl

/-- A number has a digit at least. -/
theorem exists_toDigits_eq_cons (n : ℕ) :
    ∃ c digits, Nat.toDigits 10 n = c :: digits ∧ c.isDigit = true := by
  obtain ⟨c, digits, hdigits⟩ :=
    List.exists_cons_of_ne_nil (Nat.toDigits_ne_nil (n := n) (b := 10))
  exact ⟨c, digits, hdigits,
    Nat.isDigit_of_mem_toDigits (by decide) (by decide) (hdigits ▸ List.mem_cons_self)⟩

/-- **Only zero begins with a zero.** A number in a text must not, or it is refused. -/
theorem head?_toDigits_ne {n : ℕ} (h : 0 < n) : (Nat.toDigits 10 n).head? ≠ some '0' := by
  induction n using Nat.strongRecOn with
  | ind n ih =>
    by_cases hlt : n < 10
    · rw [Nat.toDigits_of_lt_base hlt]
      have hdigit : ∀ n < 10, 0 < n → n.digitChar ≠ '0' := by decide
      simpa using hdigit n hlt h
    · have hfirst := ih (n / 10) (by omega) (by omega)
      obtain ⟨c, digits, hdigits, -⟩ := exists_toDigits_eq_cons (n / 10)
      rw [Nat.toDigits_of_base_le (by decide) (by omega), hdigits]
      rw [hdigits] at hfirst
      exact hfirst

/-- **Digits make up a whole number**: there are some, and a zero stands first only alone. -/
theorem not_isEmpty_or_head?_toDigits (n : ℕ) : ¬((Nat.toDigits 10 n).isEmpty = true
    ∨ (Nat.toDigits 10 n).head? = some '0' ∧ (Nat.toDigits 10 n).length ≠ 1) := by
  rintro (hempty | ⟨hzero, hlength⟩)
  · exact Nat.toDigits_ne_nil (List.isEmpty_iff.1 hempty)
  · cases n with
    | zero => exact hlength rfl
    | succ n => exact head?_toDigits_ne n.succ_pos hzero

/-- The text of an integer: its digits, and a sign if it needs one. -/
theorem toList_toString (n : Int) :
    (toString n).toList = (if n < 0 then ['-'] else []) ++ Nat.toDigits 10 n.natAbs := by
  rw [Int.toString_eq_repr, Int.repr_eq_if]
  by_cases h : 0 ≤ n
  · rw [if_pos h, if_neg (by omega), Nat.repr_eq_ofList_toDigits, String.toList_ofList,
      show n.toNat = n.natAbs by omega]
    rfl
  · rw [if_neg h, if_pos (by omega), Nat.repr_eq_ofList_toDigits,
      show (-n).toNat = n.natAbs by omega]
    simp

/-- **An integer is read from its text**, if it is one that the notation has, of 64 bits with a sign
or without. -/
theorem readNumber_toString {n : Int} (hrange : -2 ^ 63 ≤ n ∧ n < 2 ^ 64) {rest : List Char}
    (h : EndsValue rest) :
    readNumber ((toString n).toList ++ rest) = some (.int n hrange, rest) := by
  have hdigits : ∀ c ∈ Nat.toDigits 10 n.natAbs, c.isDigit = true := fun _ =>
    Nat.isDigit_of_mem_toDigits (by decide) (by decide)
  have hspan := spanDigits_append hdigits h
  have hvalue : Text.digitsValue (Nat.toDigits 10 n.natAbs ++ []) = n.natAbs := by
    rw [List.append_nil, Text.digitsValue_eq, Nat.ofDigitChars_ten_toDigits]
  rw [toList_toString, List.append_assoc]
  unfold readNumber
  split
  next negative cs hsign =>
  -- The sign is taken from the front. Without one there is a digit, which is none.
  have hsigned : cs = Nat.toDigits 10 n.natAbs ++ rest
      ∧ (if negative = true then -(n.natAbs : Int) else n.natAbs) = n
      ∧ ¬(negative = true ∧ n.natAbs = 0) := by
    by_cases hn : n < 0
    · rw [if_pos hn] at hsign
      obtain ⟨rfl, rfl⟩ := Prod.mk.inj hsign
      refine ⟨rfl, ?_, by omega⟩
      rw [if_pos rfl]
      omega
    · rw [if_neg hn, List.nil_append] at hsign
      split at hsign
      · next rest' hdash =>
        obtain ⟨c, digits, hcons, hc⟩ := exists_toDigits_eq_cons n.natAbs
        rw [hcons, List.cons_append] at hdash
        obtain rfl : c = '-' := (List.cons.inj hdash).1
        cases hc
      · obtain ⟨rfl, rfl⟩ := Prod.mk.inj hsign
        refine ⟨rfl, ?_, by simp⟩
        rw [if_neg (by decide)]
        omega
  obtain ⟨rfl, hn, hzero⟩ := hsigned
  simp only [hspan]
  rw [if_neg (not_isEmpty_or_head?_toDigits n.natAbs)]
  refine Option.bind_eq_some_iff.2 ⟨_, readFraction_of_endsValue h, ?_⟩
  refine Option.bind_eq_some_iff.2 ⟨_, readExponent_of_endsValue h, ?_⟩
  simp only [Option.getD_none, Option.isNone_none, hvalue, hn, hrange]
  rw [if_pos ⟨trivial, trivial, hzero⟩]
  rfl

/-! ## The beginnings of values -/

/-- **What a value may begin with**: no blank and no closing bracket. Blanks before a value are
skipped, and a closing bracket ends a list, so that neither may be mistaken for the beginning
of a value. -/
def StartsValue (cs : List Char) : Prop :=
  ∃ c rest, cs = c :: rest ∧ c ∉ [' ', '\t', '\n', '\r', ']', '\x7d']

/-- What is no blank is not skipped. -/
theorem skipBlanks_cons {c : Char} (h : c ∉ [' ', '\t', '\n', '\r']) (rest : List Char) :
    skipBlanks (c :: rest) = c :: rest :=
  List.dropWhile_cons_of_neg (by simpa [and_assoc] using h)

theorem StartsValue.skipBlanks_eq {cs : List Char} (h : StartsValue cs) : skipBlanks cs = cs := by
  obtain ⟨c, rest, rfl, hc⟩ := h
  exact skipBlanks_cons (fun hmem => hc (List.mem_append_left [']', '\x7d'] hmem)) rest

theorem StartsValue.append {cs : List Char} (h : StartsValue cs) (rest : List Char) :
    StartsValue (cs ++ rest) := by
  obtain ⟨c, cs, rfl, hc⟩ := h
  exact ⟨c, cs ++ rest, rfl, hc⟩

/-- A string begins with its quotation mark. -/
theorem startsValue_quote (s : String) : StartsValue (quote s).toList := by
  rw [quote, String.toList_ofList]
  exact ⟨'\x22', _, rfl, by decide⟩

/-- An integer begins with its sign or a digit. -/
theorem exists_toList_toString (n : Int) :
    ∃ c rest, (toString n).toList = c :: rest ∧ (c = '-' ∨ c.isDigit = true) := by
  rw [toList_toString]
  by_cases hn : n < 0
  · rw [if_pos hn]
    exact ⟨'-', _, rfl, .inl rfl⟩
  · obtain ⟨c, digits, hdigits, hc⟩ := exists_toDigits_eq_cons n.natAbs
    rw [if_neg hn, List.nil_append, hdigits]
    exact ⟨c, digits, rfl, .inr hc⟩

theorem startsValue_toString (n : Int) : StartsValue (toString n).toList := by
  obtain ⟨c, rest, htext, hc⟩ := exists_toList_toString n
  refine ⟨c, rest, htext, fun hmem => ?_⟩
  have hnone : ∀ c ∈ [' ', '\t', '\n', '\r', ']', '\x7d'], ¬(c = '-' ∨ c.isDigit = true) := by
    simp
  exact hnone c hmem hc

/-- **The values with one text**: the members of an object stand in the order of their keys, and a
number is an integer. A binary number is written with as many digits as it takes, and members that
are out of order would be put in order by reading; values with either need not come back. -/
inductive IsPlain : Json → Prop
  | null : IsPlain .null
  | bool (b : Bool) : IsPlain (.bool b)
  | int (n : Int) (hrange : -2 ^ 63 ≤ n ∧ n < 2 ^ 64) : IsPlain (.number (.int n hrange))
  | string (s : String) : IsPlain (.string s)
  | array {items : List Json} (hitems : ∀ j ∈ items, IsPlain j) : IsPlain (.array items)
  | object {members : List (String × Json)} (hmembers : ∀ m ∈ members, IsPlain m.2)
    (hsorted : members.Pairwise (·.1 < ·.1)) : IsPlain (.object members)

theorem itemTexts_eq_map (items : List Json) : itemTexts items = items.map text := by
  induction items with
  | nil => rfl
  | cons j rest ih => rw [itemTexts, ih, List.map_cons]

theorem memberTexts_eq_map (members : List (String × Json)) :
    memberTexts members = members.map fun m => quote m.1 ++ ":" ++ m.2.text := by
  induction members with
  | nil => rfl
  | cons m rest ih => rw [memberTexts, ih, List.map_cons]

/-- The characters of an array: its items with commas between them. -/
theorem toList_text_array (items : List Json) : (text (.array items)).toList
    = '[' :: [','].intercalate (items.map (·.text.toList)) ++ [']'] := by
  rw [text, itemTexts_eq_map, String.toList_append, String.toList_append,
    String.toList_intercalate, List.map_map]
  rfl

/-- The characters of a member: its key and its value. -/
def memberChars (m : String × Json) : List Char := (quote m.1).toList ++ ':' :: m.2.text.toList

theorem toList_text_object (members : List (String × Json)) : (text (.object members)).toList
    = '\x7b' :: [','].intercalate (members.map memberChars) ++ ['\x7d'] := by
  rw [text, memberTexts_eq_map, String.toList_append, String.toList_append,
    String.toList_intercalate, List.map_map]
  have hchars : String.toList ∘ (fun m : String × Json => quote m.1 ++ ":" ++ m.2.text)
      = memberChars := by
    funext m
    simp [memberChars]
  rw [hchars]
  rfl

/-- A plain value begins as a value may. -/
theorem IsPlain.startsValue_text {j : Json} (h : j.IsPlain) : StartsValue j.text.toList := by
  cases h with
  | null => exact ⟨'n', _, rfl, by decide⟩
  | bool b =>
    cases b with
    | false => exact ⟨'f', _, rfl, by decide⟩
    | true => exact ⟨'t', _, rfl, by decide⟩
  | int n hrange => exact startsValue_toString n
  | string s => exact startsValue_quote s
  | array _ =>
    rw [toList_text_array]
    exact ⟨'[', _, rfl, by decide⟩
  | object _ _ =>
    rw [toList_text_object]
    exact ⟨'\x7b', _, rfl, by decide⟩

/-! ## Values

The reader takes fuel, and a value is read with any amount that is not less than the length of its
text. So the inductions below are over values and not over fuel, and each part of a value has a text
that is shorter than the whole. -/

section Readers

variable {limit fuel : ℕ} {cs rest rest' : List Char}

theorem readValue_array {items : List Json} (hcs : StartsValue cs)
    (h : readItems limit fuel cs = some (items, rest)) :
    readValue limit (fuel + 1) ('[' :: cs) = some (.array items, rest) := by
  have hopen : skipBlanks ('[' :: cs) = '[' :: cs := skipBlanks_cons (by decide) cs
  have hskip := hcs.skipBlanks_eq
  obtain ⟨c, cs, rfl, hc⟩ := hcs
  rw [readValue, hopen]
  simp only [hskip]
  split
  · next heq =>
    obtain ⟨rfl, -⟩ := List.cons.inj heq
    exact absurd (by decide) hc
  · rw [h]
    rfl

theorem readValue_object {members : List (String × Json)} (hcs : StartsValue cs)
    (h : readMembers limit fuel cs = some (members, rest)) :
    readValue limit (fuel + 1) ('\x7b' :: cs) = some (.ofMembers members, rest) := by
  have hopen : skipBlanks ('\x7b' :: cs) = '\x7b' :: cs := skipBlanks_cons (by decide) cs
  have hskip := hcs.skipBlanks_eq
  obtain ⟨c, cs, rfl, hc⟩ := hcs
  rw [readValue, hopen]
  simp only [hskip]
  split
  · next heq =>
    obtain ⟨rfl, -⟩ := List.cons.inj heq
    exact absurd (by decide) hc
  · rw [h]
    rfl

/-- A written character has one character at least. -/
theorem length_le_length_flatMap_escapeChar (cs : List Char) :
    cs.length ≤ (cs.flatMap escapeChar).length := by
  have hescape (c : Char) : 1 ≤ (escapeChar c).length := by
    unfold escapeChar
    split_ifs <;> simp
  induction cs with
  | nil => exact Nat.le_refl _
  | cons c cs ih =>
    have hc := hescape c
    rw [List.flatMap_cons, List.length_append, List.length_cons]
    omega

/-- **A string is read with its quotation marks.** The limit is the length of the whole document,
which is what a string is read with wherever it stands. -/
theorem readString_quote {s : String} (h : (quote s).toList.length ≤ limit) (rest : List Char) :
    ∃ cs, (quote s).toList ++ rest = '\x22' :: cs
      ∧ readString limit cs = some (s.toList, rest) := by
  have hlength := length_le_length_flatMap_escapeChar s.toList
  rw [quote, String.toList_ofList] at h ⊢
  refine ⟨s.toList.flatMap escapeChar ++ '\x22' :: rest, by simp, readString_flatMap ?_ rest⟩
  simp only [List.cons_append, List.length_cons, List.length_append] at h
  omega

theorem readValue_quote {s : String} (h : (quote s).toList.length ≤ limit) (rest : List Char) :
    readValue limit (fuel + 1) ((quote s).toList ++ rest) = some (.string s, rest) := by
  obtain ⟨cs, hcs, hread⟩ := readString_quote h rest
  have hskip : skipBlanks ('\x22' :: cs) = '\x22' :: cs := skipBlanks_cons (by decide) cs
  rw [hcs, readValue, hskip]
  refine Option.bind_eq_some_iff.2 ⟨_, hread, ?_⟩
  simp only [String.ofList_toList]

theorem readValue_toString {n : Int} (hrange : -2 ^ 63 ≤ n ∧ n < 2 ^ 64) (h : EndsValue rest) :
    readValue limit (fuel + 1) ((toString n).toList ++ rest)
      = some (.number (.int n hrange), rest) := by
  have hread := readNumber_toString hrange h
  have hskip := ((startsValue_toString n).append rest).skipBlanks_eq
  obtain ⟨c, cs, htext, hc⟩ := exists_toList_toString n
  have hnone : c ∉ ['[', '\x7b', '\x22', 't', 'f', 'n'] := by
    have hnone : ∀ c ∈ ['[', '\x7b', '\x22', 't', 'f', 'n'], ¬(c = '-' ∨ c.isDigit = true) := by
      simp
    exact fun hmem => hnone c hmem hc
  rw [readValue, hskip]
  rw [htext, List.cons_append] at hread ⊢
  split
  -- No word, string or container begins like a number.
  case h_7 =>
    rw [hread]
    rfl
  all_goals
    next heq =>
    obtain ⟨rfl, -⟩ := List.cons.inj heq
    exact absurd (by decide) hnone

/-- **A value is read from its own text** and leaves what follows. What follows is left open, so
that the value may stand in a list, as a member, or alone. -/
def ReadsBack (limit : ℕ) (j : Json) : Prop :=
  ∀ fuel rest, j.text.toList.length ≤ fuel → EndsValue rest →
    readValue limit fuel (j.text.toList ++ rest) = some (j, rest)

/-- **The items of an array are read one by one.** After an item there is a comma or the closing
bracket, both of which may follow a value. -/
theorem readItems_intercalate {items : List Json} (hne : items ≠ [])
    (h : ∀ j ∈ items, ReadsBack limit j)
    (hfuel : ([','].intercalate (items.map (·.text.toList))).length < fuel) :
    readItems limit fuel ([','].intercalate (items.map (·.text.toList)) ++ ']' :: rest)
      = some (items, rest) := by
  induction items generalizing fuel with
  | nil => exact absurd rfl hne
  | cons j items ih =>
    obtain ⟨hj, hitems⟩ := List.forall_mem_cons.1 h
    obtain ⟨fuel, rfl⟩ := Nat.exists_eq_succ_of_ne_zero (by omega : fuel ≠ 0)
    rw [List.map_cons] at hfuel ⊢
    by_cases hnil : items = []
    · subst hnil
      rw [List.map_nil, List.intercalate_singleton] at hfuel ⊢
      have hread := hj fuel (']' :: rest) (by omega) (endsValue_cons (by decide) rest)
      rw [readItems, hread]
      rfl
    · rw [List.intercalate_cons_of_ne_nil (by simpa using hnil)] at hfuel ⊢
      simp only [List.length_append, List.length_cons, List.length_nil] at hfuel
      simp only [List.append_assoc, List.cons_append, List.nil_append]
      have hread := hj fuel (',' :: ([','].intercalate (items.map (·.text.toList)) ++ ']' :: rest))
        (by omega) (endsValue_cons (by decide) _)
      rw [readItems, hread, Option.bind_eq_bind, Option.bind_some]
      exact Option.bind_eq_some_iff.2 ⟨_, ih hnil hitems (by omega), rfl⟩

/-- **A member is read from its text**: the key, the colon and the value. -/
theorem exists_read_memberChars (fuel : ℕ) {m : String × Json}
    (hkey : (quote m.1).toList.length ≤ limit) (hvalue : ReadsBack limit m.2)
    (hfuel : (memberChars m).length ≤ fuel) (h : EndsValue rest) :
    ∃ cs cs', memberChars m ++ rest = '\x22' :: cs
      ∧ readString limit cs = some (m.1.toList, ':' :: cs')
      ∧ readValue limit fuel cs' = some (m.2, rest) := by
  rw [memberChars, List.append_assoc, List.cons_append]
  rw [memberChars, List.length_append, List.length_cons] at hfuel
  obtain ⟨cs, hcs, hstring⟩ := readString_quote hkey (':' :: (m.2.text.toList ++ rest))
  exact ⟨cs, _, hcs, hstring, hvalue fuel rest (by omega) h⟩

/-- **The members of an object are read one by one**, as the items of an array are. -/
theorem readMembers_intercalate {members : List (String × Json)} (hne : members ≠ [])
    (h : ∀ m ∈ members, (quote m.1).toList.length ≤ limit ∧ ReadsBack limit m.2)
    (hfuel : ([','].intercalate (members.map memberChars)).length < fuel) :
    readMembers limit fuel ([','].intercalate (members.map memberChars) ++ '\x7d' :: rest)
      = some (members, rest) := by
  induction members generalizing fuel with
  | nil => exact absurd rfl hne
  | cons m members ih =>
    obtain ⟨⟨hkey, hvalue⟩, hmembers⟩ := List.forall_mem_cons.1 h
    obtain ⟨fuel, rfl⟩ := Nat.exists_eq_succ_of_ne_zero (by omega : fuel ≠ 0)
    rw [List.map_cons] at hfuel ⊢
    by_cases hnil : members = []
    · subst hnil
      rw [List.map_nil, List.intercalate_singleton] at hfuel ⊢
      -- The last member is ended by the brace.
      have hclose : EndsValue ('\x7d' :: rest) := endsValue_cons (by decide) rest
      obtain ⟨cs, cs', hcs, hstring, hread⟩ :=
        exists_read_memberChars fuel hkey hvalue (by omega) hclose
      -- Behind the comma there are more members.
      have hskip : skipBlanks ('\x22' :: cs) = '\x22' :: cs := skipBlanks_cons (by decide) cs
      rw [hcs, readMembers, hskip]
      refine Option.bind_eq_some_iff.2 ⟨_, hstring, ?_⟩
      refine Option.bind_eq_some_iff.2 ⟨_, hread, ?_⟩
      simp only [String.ofList_toList]
      rfl
    · rw [List.intercalate_cons_of_ne_nil (by simpa using hnil)] at hfuel ⊢
      simp only [List.length_append, List.length_cons, List.length_nil] at hfuel
      simp only [List.append_assoc, List.cons_append, List.nil_append]
      have hcomma : EndsValue (',' :: ([','].intercalate (members.map memberChars)
        ++ '\x7d' :: rest)) := endsValue_cons (by decide) _
      obtain ⟨cs, cs', hcs, hstring, hread⟩ :=
        exists_read_memberChars fuel hkey hvalue (by omega) hcomma
      have hskip : skipBlanks ('\x22' :: cs) = '\x22' :: cs := skipBlanks_cons (by decide) cs
      rw [hcs, readMembers, hskip]
      refine Option.bind_eq_some_iff.2 ⟨_, hstring, ?_⟩
      refine Option.bind_eq_some_iff.2 ⟨_, hread, ?_⟩
      refine Option.bind_eq_some_iff.2 ⟨_, ih hnil hmembers (by omega), ?_⟩
      simp only [String.ofList_toList]

/-- A part is no longer than the whole. -/
theorem length_le_length_intercalate {α : Type} (sep : List Char) (f : α → List Char) {a : α}
    {items : List α} (h : a ∈ items) : (f a).length ≤ (sep.intercalate (items.map f)).length := by
  induction items with
  | nil => cases h
  | cons b items ih =>
    rw [List.map_cons]
    by_cases hnil : items = []
    · subst hnil
      obtain rfl := List.mem_singleton.1 h
      exact Nat.le_of_eq (by rw [List.map_nil, List.intercalate_singleton])
    · rw [List.intercalate_cons_of_ne_nil (by simpa using hnil), List.length_append,
        List.length_append]
      obtain rfl | hmem := List.mem_cons.1 h
      · omega
      · have hrest := ih hmem
        omega

/-- A member with a key behind the others is put behind them. -/
theorem insertMember_of_forall_lt {key : String} {value : Json} {members : List (String × Json)}
    (h : ∀ m ∈ members, m.1 < key) :
    insertMember key value members = members ++ [(key, value)] := by
  induction members with
  | nil => rfl
  | cons m members ih =>
    obtain ⟨hm, hmembers⟩ := List.forall_mem_cons.1 h
    have hne : key ≠ m.1 := by
      rintro rfl
      exact String.lt_irrefl _ hm
    rw [insertMember, if_neg (String.lt_asymm hm), if_neg hne, ih hmembers]
    rfl

/-- **Members in order make up an object as they are.** The reader puts the members in order by
their keys, which changes nothing here; and no key comes twice. -/
theorem ofMembers_of_pairwise {members : List (String × Json)}
    (h : members.Pairwise (·.1 < ·.1)) : ofMembers members = .object members := by
  have hfold (members : List (String × Json)) (sorted : List (String × Json))
      (h : (sorted ++ members).Pairwise (·.1 < ·.1)) :
      members.foldl (fun sorted m => insertMember m.1 m.2 sorted) sorted = sorted ++ members := by
    induction members generalizing sorted with
    | nil => rw [List.foldl_nil, List.append_nil]
    | cons m members ih =>
      have hbefore := (List.pairwise_append.1 h).2.2
      rw [List.foldl_cons, insertMember_of_forall_lt fun m' hm' => hbefore m' hm' m (by simp),
        ih _ (by simpa using h)]
      simp
  exact congrArg Json.object (hfold members [] h)

theorem startsValue_intercalate {sep : List Char} {parts : List (List Char)} (hne : parts ≠ [])
    (h : ∀ part ∈ parts, StartsValue part) : StartsValue (sep.intercalate parts) := by
  obtain ⟨part, parts, rfl⟩ := List.exists_cons_of_ne_nil hne
  have hpart := h part List.mem_cons_self
  by_cases hnil : parts = []
  · rw [hnil, List.intercalate_singleton]
    exact hpart
  · rw [List.intercalate_cons_of_ne_nil hnil, List.append_assoc]
    exact hpart.append _

/-- A value has a character, so that there is something of the limit left to read it with. -/
theorem ReadsBack.of_succ {j : Json} (hstart : StartsValue j.text.toList)
    (h : ∀ fuel rest, j.text.toList.length ≤ fuel + 1 → EndsValue rest →
      readValue limit (fuel + 1) (j.text.toList ++ rest) = some (j, rest)) : ReadsBack limit j := by
  intro fuel rest hfuel hrest
  obtain ⟨c, cs, htext, -⟩ := hstart
  cases fuel with
  | zero => simp [htext] at hfuel
  | succ fuel => exact h fuel rest hfuel hrest

/-- **An array takes its own text** if its items do. -/
theorem readsBack_array {items : List Json} (hstart : ∀ j ∈ items, StartsValue j.text.toList)
    (h : ∀ j ∈ items, ReadsBack limit j) : ReadsBack limit (.array items) := by
  refine .of_succ (by rw [toList_text_array]; exact ⟨'[', _, rfl, by decide⟩) ?_
  intro fuel rest hfuel _
  rw [toList_text_array] at hfuel ⊢
  simp only [List.cons_append, List.append_assoc, List.nil_append, List.length_cons,
    List.length_append, List.length_nil] at hfuel ⊢
  by_cases hnil : items = []
  · subst hnil
    rfl
  · have hparts : StartsValue ([','].intercalate (items.map (·.text.toList))) :=
      startsValue_intercalate (by simpa using hnil) (List.forall_mem_map.2 hstart)
    exact readValue_array (hparts.append _) (readItems_intercalate hnil h (by omega))

/-- **An object takes its own text** if its members are in order and their values do. -/
theorem readsBack_object {members : List (String × Json)}
    (hsorted : members.Pairwise (·.1 < ·.1))
    (h : ∀ m ∈ members, (quote m.1).toList.length ≤ limit ∧ ReadsBack limit m.2) :
    ReadsBack limit (.object members) := by
  refine .of_succ (by rw [toList_text_object]; exact ⟨'\x7b', _, rfl, by decide⟩) ?_
  intro fuel rest hfuel _
  rw [toList_text_object] at hfuel ⊢
  simp only [List.cons_append, List.append_assoc, List.nil_append, List.length_cons,
    List.length_append, List.length_nil] at hfuel ⊢
  by_cases hnil : members = []
  · subst hnil
    rfl
  · have hparts : StartsValue ([','].intercalate (members.map memberChars)) :=
      startsValue_intercalate (by simpa using hnil)
        (List.forall_mem_map.2 fun m _ => (startsValue_quote m.1).append _)
    rw [← ofMembers_of_pairwise hsorted]
    exact readValue_object (hparts.append _) (readMembers_intercalate hnil h (by omega))

/-- **A value takes its own text**, whatever it is. The induction is on the value, with one case for
each of its forms; of arrays and objects the parts are read with the fuel that is left. -/
theorem IsPlain.readsBack {j : Json} (h : j.IsPlain) (hlimit : j.text.toList.length ≤ limit) :
    ReadsBack limit j := by
  induction h with
  | null => exact .of_succ IsPlain.null.startsValue_text fun _ _ _ _ => rfl
  | bool b =>
    refine .of_succ (IsPlain.bool b).startsValue_text fun _ _ _ _ => ?_
    cases b <;> rfl
  | int n hrange => exact .of_succ (startsValue_toString n) fun _ _ _ => readValue_toString hrange
  | string s =>
    exact .of_succ (startsValue_quote s) fun _ rest _ _ => readValue_quote hlimit rest
  | @array items hitems ih =>
    rw [toList_text_array] at hlimit
    simp only [List.length_append, List.length_cons, List.length_nil] at hlimit
    refine readsBack_array (fun j hj => (hitems j hj).startsValue_text) fun j hj => ih j hj ?_
    have hpart := length_le_length_intercalate [','] (fun j => j.text.toList) hj
    omega
  | @object members hmembers hsorted ih =>
    rw [toList_text_object] at hlimit
    simp only [List.length_append, List.length_cons, List.length_nil] at hlimit
    refine readsBack_object hsorted fun m hm => ?_
    have hpart := length_le_length_intercalate [','] memberChars hm
    rw [memberChars, List.length_append, List.length_cons] at hpart
    exact ⟨by omega, ih m hm (by omega)⟩

end Readers

/-- **JSON comes back from its text.** A document is read with its own length for fuel, and nothing
may follow it. -/
theorem IsPlain.parse?_text {j : Json} (h : j.IsPlain) : parse? j.text = some j := by
  have hread := h.readsBack (Nat.le_succ _) (j.text.toList.length + 1) [] (by omega) endsValue_nil
  rw [List.append_nil] at hread
  rw [parse?]
  refine Option.bind_eq_some_iff.2 ⟨_, hread, ?_⟩
  rfl

end Json

end Tariff
