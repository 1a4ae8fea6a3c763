import Mathlib.Data.List.DropRight
import Mathlib.Tactic.Common

/-! JSON texts: a reader, and the ways in which a value can be written. A string may spell each of
its characters as itself, by a short escape, by the number of its code point or by a surrogate
pair, and blanks may stand around every token. -/
namespace JsonText

inductive Json where
  | null
  | bool (value : Bool)
  | num (text : List Char)
  | str (value : List Char)
  | arr (items : List Json)
  | obj (members : List (List Char × Json))

/-! ### Strings -/

/-- What one element of a string literal stands for. -/
inductive Unit16 where
  | char (c : Char)
  | code (n : Nat)
  deriving DecidableEq, Repr

def hexDigit (c : Char) : Option Nat :=
  if '0' ≤ c ∧ c ≤ '9' then some (c.toNat - 48)
  else if 'a' ≤ c ∧ c ≤ 'f' then some (c.toNat - 87)
  else if 'A' ≤ c ∧ c ≤ 'F' then some (c.toNat - 55)
  else none

def hex4 (a b c d : Char) : Option Nat := do
  let a ← hexDigit a
  let b ← hexDigit b
  let c ← hexDigit c
  let d ← hexDigit d
  some (((a * 16 + b) * 16 + c) * 16 + d)

/-- The character of a short escape. -/
def unescape : Char → Option Char
  | '"' => some '"'
  | '\\' => some '\\'
  | '/' => some '/'
  | 'b' => some '\x08'
  | 'f' => some '\x0c'
  | 'n' => some '\n'
  | 'r' => some '\r'
  | 't' => some '\t'
  | _ => none

/-- The elements of a literal up to its closing quote, and what follows it. -/
def elements : List Char → Option (List Unit16 × List Char)
  | [] => none
  | '"' :: rest => some ([], rest)
  | '\\' :: 'u' :: a :: b :: c :: d :: rest => do
    let n ← hex4 a b c d
    let later ← elements rest
    some (.code n :: later.1, later.2)
  | '\\' :: e :: rest => do
    let c ← unescape e
    let later ← elements rest
    some (.char c :: later.1, later.2)
  | c :: rest =>
    if c < ' ' then none
    else (elements rest).map fun later => (.char c :: later.1, later.2)

def isHigh (n : Nat) : Bool := 0xD800 ≤ n && n < 0xDC00

def isLow (n : Nat) : Bool := 0xDC00 ≤ n && n < 0xE000

/-- The replacement character. -/
def replacement : Char := '�'

/-- A code unit on its own. -/
def alone (n : Nat) : Char := if isHigh n || isLow n then replacement else Char.ofNat n

/-- Two surrogates that belong together are one character, any other is replaced. -/
def join : List Unit16 → List Char
  | [] => []
  | .char c :: rest => c :: join rest
  | .code h :: .code l :: rest =>
    if isHigh h && isLow l then Char.ofNat (0x10000 + (h - 0xD800) * 0x400 + (l - 0xDC00)) :: join rest
    else alone h :: join (.code l :: rest)
  | .code n :: rest => alone n :: join rest

/-- A string after its opening quote. -/
def readString (text : List Char) : Option (List Char × List Char) :=
  (elements text).map fun found => (join found.1, found.2)

/-! ### Values -/

def isSpace (c : Char) : Bool := c = ' ' || c = '\t' || c = '\n' || c = '\r'

def skip (text : List Char) : List Char := text.dropWhile isSpace

def digits (text : List Char) : Option (List Char × List Char) :=
  match text.span Char.isDigit with
  | ([], _) => none
  | found => some found

def intPart : List Char → Option (List Char × List Char)
  | '0' :: rest => some (['0'], rest)
  | text => digits text

def fracPart : List Char → Option (List Char × List Char)
  | '.' :: rest => (digits rest).map fun found => ('.' :: found.1, found.2)
  | text => some ([], text)

def expPart : List Char → Option (List Char × List Char)
  | e :: rest =>
    if e = 'e' || e = 'E' then
      match rest with
      | '+' :: rest => (digits rest).map fun found => (e :: '+' :: found.1, found.2)
      | '-' :: rest => (digits rest).map fun found => (e :: '-' :: found.1, found.2)
      | rest => (digits rest).map fun found => (e :: found.1, found.2)
    else some ([], e :: rest)
  | [] => some ([], [])

def number (text : List Char) : Option (Json × List Char) := do
  let sign := if text.head? = some '-' then ['-'] else []
  let int ← intPart (text.drop sign.length)
  let frac ← fracPart int.2
  let exp ← expPart frac.2
  some (.num (sign ++ int.1 ++ frac.1 ++ exp.1), exp.2)

section
variable (value : List Char → Option (Json × List Char))

/-- The members of an object after its brace, one round for each. -/
def members : Nat → List Char → Option (List (List Char × Json) × List Char)
  | 0, _ => none
  | rounds + 1, text =>
    match skip text with
    | '"' :: rest => do
      let key ← readString rest
      match skip key.2 with
      | ':' :: rest => do
        let v ← value rest
        match skip v.2 with
        | '}' :: rest => some ([(key.1, v.1)], rest)
        | ',' :: rest => (members rounds rest).map fun later => ((key.1, v.1) :: later.1, later.2)
        | _ => none
      | _ => none
    | _ => none

def items : Nat → List Char → Option (List Json × List Char)
  | 0, _ => none
  | rounds + 1, text => do
    let v ← value text
    match skip v.2 with
    | ']' :: rest => some ([v.1], rest)
    | ',' :: rest => (items rounds rest).map fun later => (v.1 :: later.1, later.2)
    | _ => none

end

/-- One value, to a depth of at most `depth`. -/
def value : Nat → List Char → Option (Json × List Char)
  | 0, _ => none
  | depth + 1, text =>
    match skip text with
    | '"' :: rest => (readString rest).map fun found => (.str found.1, found.2)
    | '{' :: rest =>
      match skip rest with
      | '}' :: rest => some (.obj [], rest)
      | rest => (members (value depth) rest.length rest).map fun found => (.obj found.1, found.2)
    | '[' :: rest =>
      match skip rest with
      | ']' :: rest => some (.arr [], rest)
      | rest => (items (value depth) rest.length rest).map fun found => (.arr found.1, found.2)
    | 'n' :: 'u' :: 'l' :: 'l' :: rest => some (.null, rest)
    | 't' :: 'r' :: 'u' :: 'e' :: rest => some (.bool true, rest)
    | 'f' :: 'a' :: 'l' :: 's' :: 'e' :: rest => some (.bool false, rest)
    | rest => number rest

/-- A text that is one value and nothing else. -/
def parse (text : List Char) : Option Json :=
  match value (text.length + 1) text with
  | some (found, rest) => if skip rest = [] then some found else none
  | none => none

/-! ### What can be written -/

/-- A text for one element of a literal. -/
inductive Writes : Unit16 → List Char → Prop where
  | raw : ¬c < ' ' → c ≠ '"' → c ≠ '\\' → Writes (.char c) [c]
  | short : unescape e = some c → Writes (.char c) ['\\', e]
  | hex : hex4 a b c d = some n → Writes (.code n) ['\\', 'u', a, b, c, d]

inductive Written : List Unit16 → List Char → Prop where
  | nil : Written [] []
  | cons : Writes u t → Written us text → Written (u :: us) (t ++ text)

/-- The elements that stand for a character. -/
inductive Spells : Char → List Unit16 → Prop where
  | self : Spells c [.char c]
  | code : c.toNat < 0x10000 → Spells c [.code c.toNat]
  | pair : 0x10000 ≤ c.toNat → Spells c [.code (0xD800 + (c.toNat - 0x10000) / 0x400),
      .code (0xDC00 + (c.toNat - 0x10000) % 0x400)]

/-- A string between its quotes. -/
inductive StringText : List Char → List Char → Prop where
  | nil : StringText [] []
  | cons : Spells c us → Written us t → StringText s text → StringText (c :: s) (t ++ text)

def Blank (text : List Char) : Prop := ∀ c ∈ text, isSpace c = true

/-- A member with a string for its value: blanks, key, blanks, colon, blanks, value, blanks. -/
inductive MemberText : List Char × List Char → List Char → Prop where
  | member : Blank b₁ → StringText k key → Blank b₂ → Blank b₃ → StringText v val → Blank b₄ →
      MemberText (k, v) (b₁ ++ '"' :: (key ++ '"' :: (b₂ ++ ':' :: (b₃ ++ '"' :: (val ++ '"' :: b₄)))))

/-- The members of an object up to and with its closing brace. -/
inductive MembersText : List (List Char × List Char) → List Char → Prop where
  | last : MemberText e text → MembersText [e] (text ++ ['}'])
  | more : MemberText e text → MembersText es later → MembersText (e :: es) (text ++ ',' :: later)

/-- An object whose values are strings. -/
inductive ObjectText : List (List Char × List Char) → List Char → Prop where
  | empty : Blank b₁ → Blank b₂ → Blank b₃ → ObjectText [] (b₁ ++ '{' :: (b₂ ++ '}' :: b₃))
  | members : Blank b₁ → MembersText es text → Blank b₂ → ObjectText es (b₁ ++ '{' :: (text ++ b₂))

/-! ### It is read as what it was -/

theorem elements_write {u : Unit16} {t : List Char} (writes : Writes u t) (rest : List Char) :
    elements (t ++ rest) = (elements rest).map fun later => (u :: later.1, later.2) := by
  cases writes with
  | @raw c printable unquoted unescaped =>
    simp only [List.cons_append, List.nil_append]
    rw [elements]
    · rw [if_neg printable]
    · exact fun same => unquoted same
    · exact fun _ _ _ _ _ same => absurd same unescaped
    · exact fun _ _ same => absurd same unescaped
  | @short e c escape =>
    have plain : e ≠ 'u' := by
      rintro rfl
      cases escape
    simp only [List.cons_append, List.nil_append]
    rw [elements]
    · rw [escape]
      cases elements rest <;> rfl
    · exact fun _ _ _ _ _ same => absurd same plain
  | @hex a b c d n code =>
    simp only [List.cons_append, List.nil_append]
    rw [elements, code]
    cases elements rest <;> rfl

theorem elements_written {us : List Unit16} {text : List Char} (written : Written us text) (rest : List Char) :
    elements (text ++ rest) = (elements rest).map fun later => (us ++ later.1, later.2) := by
  induction written with
  | nil => simp
  | cons writes _ ih =>
    rw [List.append_assoc, elements_write writes, ih, Option.map_map]
    rfl

/-- A character is no surrogate, and there is an end to them. -/
theorem toNat_bounds (c : Char) :
    (c.toNat < 0xD800 ∨ 0xE000 ≤ c.toNat) ∧ c.toNat < 0x110000 := by
  have valid := c.valid
  simp only [UInt32.isValidChar, Nat.isValidChar] at valid
  change (c.val.toNat < 0xD800 ∨ 0xE000 ≤ c.val.toNat) ∧ c.val.toNat < 0x110000
  omega

theorem isHigh_toNat (c : Char) : isHigh c.toNat = false := by
  have bounds := toNat_bounds c
  simp only [isHigh, Bool.and_eq_false_iff, decide_eq_false_iff_not]
  omega

theorem alone_toNat (c : Char) : alone c.toNat = c := by
  have bounds := toNat_bounds c
  have low : isLow c.toNat = false := by
    simp only [isLow, Bool.and_eq_false_iff, decide_eq_false_iff_not]
    omega
  rw [alone, isHigh_toNat, low, Char.ofNat_toNat]
  rfl

theorem join_code {n : Nat} (low : isHigh n = false) (rest : List Unit16) :
    join (.code n :: rest) = alone n :: join rest := by
  cases rest with
  | nil => rfl
  | cons u rest =>
    cases u with
    | char c => rfl
    | code l =>
      rw [join, low]
      rfl

/-- What stands for a character is joined to it, whatever comes next. -/
theorem join_spells {c : Char} {us : List Unit16} (spells : Spells c us) (rest : List Unit16) :
    join (us ++ rest) = c :: join rest := by
  cases spells with
  | self => rfl
  | code small =>
    rw [List.singleton_append, join_code (isHigh_toNat c), alone_toNat]
  | pair large =>
    have bounds := toNat_bounds c
    have high : isHigh (0xD800 + (c.toNat - 0x10000) / 0x400) = true := by
      simp only [isHigh, Bool.and_eq_true, decide_eq_true_eq]
      omega
    have low : isLow (0xDC00 + (c.toNat - 0x10000) % 0x400) = true := by
      simp only [isLow, Bool.and_eq_true, decide_eq_true_eq]
      omega
    have sum : 0x10000 + (0xD800 + (c.toNat - 0x10000) / 0x400 - 0xD800) * 0x400 +
        (0xDC00 + (c.toNat - 0x10000) % 0x400 - 0xDC00) = c.toNat := by omega
    simp only [List.cons_append, List.nil_append, join, high, low, Bool.and_self, if_true, sum, Char.ofNat_toNat]

theorem readString_text {s text : List Char} (string : StringText s text) (rest : List Char) :
    readString (text ++ '"' :: rest) = some (s, rest) := by
  have found : ∃ us, elements (text ++ '"' :: rest) = some (us, rest) ∧ join us = s := by
    induction string with
    | nil => exact ⟨[],by rw [List.nil_append, elements],rfl⟩
    | cons spells written _ ih =>
      obtain ⟨us,later,joined⟩ := ih
      refine ⟨_,by rw [List.append_assoc, elements_written written, later, Option.map_some],?_⟩
      rw [join_spells spells, joined]
  obtain ⟨us,found,joined⟩ := found
  rw [readString, found, Option.map_some, joined]

/-- The next token is where the blanks end. -/
theorem skip_blank {blank : List Char} (blanks : Blank blank) {c : Char} (token : isSpace c = false) (rest : List Char) :
    skip (blank ++ c :: rest) = c :: rest := by
  rw [skip, List.dropWhile_append_of_pos blanks, List.dropWhile_cons_of_neg (by rw [token]; exact Bool.false_ne_true)]

theorem skip_all {blank : List Char} (blanks : Blank blank) : skip blank = [] := by
  rw [skip, ← List.append_nil blank, List.dropWhile_append_of_pos blanks]
  rfl

section
variable {e : List Char × List Char} {es : List (List Char × List Char)} {text : List Char} {depth : Nat}

theorem value_string {blank s : List Char} (blanks : Blank blank) (string : StringText s text) (rest : List Char) :
    value (depth + 1) (blank ++ '"' :: (text ++ '"' :: rest)) = some (.str s, rest) := by
  rw [value, skip_blank blanks (by decide)]
  simp only [readString_text string, Option.map_some]

/-- One round of the reader, up to the token after the member. -/
theorem members_member (member : MemberText e text) (rounds : Nat) {c : Char} (token : isSpace c = false)
    (rest : List Char) :
    members (value (depth + 1)) (rounds + 1) (text ++ c :: rest) =
      match c :: rest with
      | '}' :: rest => some ([(e.1, .str e.2)], rest)
      | ',' :: rest => (members (value (depth + 1)) rounds rest).map fun later => ((e.1, .str e.2) :: later.1, later.2)
      | _ => none := by
  cases member with
  | member b₁ key b₂ b₃ val b₄ =>
    simp only [List.append_assoc, List.cons_append]
    rw [members, skip_blank b₁ (by decide)]
    simp only [readString_text key, Option.bind_eq_bind, Option.bind_some]
    rw [skip_blank b₂ (by decide)]
    simp only [value_string b₃ val, Option.bind_some]
    rw [skip_blank b₄ token]

theorem members_text (written : MembersText es text) (rest : List Char) :
    ∀ rounds, es.length ≤ rounds → members (value (depth + 1)) rounds (text ++ rest) =
      some (es.map fun e => (e.1, .str e.2), rest) := by
  induction written with
  | last member =>
    intro rounds enough
    obtain ⟨rounds,rfl⟩ := Nat.exists_eq_add_one_of_ne_zero (Nat.ne_of_gt enough)
    rw [List.append_assoc, List.singleton_append, members_member member rounds (by decide)]
    rfl
  | more member _ ih =>
    intro rounds enough
    obtain ⟨rounds,rfl⟩ := Nat.exists_eq_add_one_of_ne_zero (Nat.ne_of_gt (Nat.lt_of_lt_of_le (Nat.succ_pos _) enough))
    rw [List.append_assoc, List.cons_append, members_member member rounds (by decide)]
    simp only [ih rounds (Nat.le_of_succ_le_succ enough), Option.map_some, List.map_cons]

/-- A member begins with a quote, after blanks. -/
theorem MemberText.skips (member : MemberText e text) (more : List Char) :
    ∃ later, skip (text ++ more) = '"' :: (later ++ more) := by
  cases member with
  | @member b₁ k key b₂ b₃ v val b₄ blanks =>
    refine ⟨key ++ '"' :: (b₂ ++ ':' :: (b₃ ++ '"' :: (val ++ '"' :: b₄))),?_⟩
    rw [List.append_assoc, List.cons_append, skip_blank blanks (by decide)]

theorem MembersText.skips (written : MembersText es text) (more : List Char) :
    ∃ later, skip (text ++ more) = '"' :: later ∧ es.length ≤ later.length := by
  induction written with
  | @last e text member =>
    obtain ⟨later,skipped⟩ := member.skips ('}' :: more)
    refine ⟨_,by rw [List.append_assoc]; exact skipped,?_⟩
    simp only [List.length_append, List.length_cons, List.length_nil]
    omega
  | @more e text es rest member _ ih =>
    obtain ⟨later,skipped⟩ := member.skips (',' :: (rest ++ more))
    obtain ⟨inner,tail,fits⟩ := ih
    refine ⟨_,by rw [List.append_assoc]; exact skipped,?_⟩
    have shorter : (skip (rest ++ more)).length ≤ (rest ++ more).length := (List.dropWhile_sublist _).length_le
    rw [tail] at shorter
    simp only [List.length_append, List.length_cons] at shorter ⊢
    omega

theorem members_skip (read : List Char → Option (Json × List Char)) (rounds : Nat) (text : List Char) :
    members read rounds (skip text) = members read rounds text := by
  cases rounds with
  | zero => rfl
  | succ rounds =>
    have twice : skip (skip text) = skip text := List.dropWhile_idempotent isSpace text
    rw [members, members, twice]

theorem ObjectText.nonempty (written : ObjectText es text) : text ≠ [] := by
  cases written <;> simp

/-- Every way to write an object of strings is read as that object. -/
theorem parse_object (written : ObjectText es text) :
    parse text = some (.obj (es.map fun e => (e.1, .str e.2))) := by
  cases written with
  | @empty b₁ b₂ b₃ first second third =>
    have read : value ((b₁ ++ '{' :: (b₂ ++ '}' :: b₃)).length + 1) (b₁ ++ '{' :: (b₂ ++ '}' :: b₃)) =
        some (.obj [], b₃) := by
      rw [value, skip_blank first (by decide)]
      simp only [skip_blank second (c := '}') (by decide)]
    simp only [parse, read, skip_all third, if_true, List.map_nil]
  | @members b₁ _ text b₂ first written last =>
    obtain ⟨later,skipped,fits⟩ := written.skips b₂
    obtain ⟨depth,deep⟩ : ∃ depth, (b₁ ++ '{' :: (text ++ b₂)).length = depth + 1 := by
      exact ⟨_,by simp only [List.length_append, List.length_cons]; rfl⟩
    have read : value ((b₁ ++ '{' :: (text ++ b₂)).length + 1) (b₁ ++ '{' :: (text ++ b₂)) =
        some (.obj (es.map fun e => (e.1, .str e.2)), b₂) := by
      have inside : members (value (depth + 1)) (later.length + 1) (text ++ b₂) =
          some (es.map fun e => (e.1, .str e.2), b₂) :=
        members_text written b₂ (later.length + 1) (Nat.le_succ_of_le fits)
      rw [← members_skip, skipped] at inside
      rw [deep, value, skip_blank first (by decide)]
      simp only [skipped]
      change (members (value (depth + 1)) (later.length + 1) ('"' :: later)).map _ = _
      rw [inside, Option.map_some]
    simp only [parse, read, skip_all last, if_true]

end

end JsonText
