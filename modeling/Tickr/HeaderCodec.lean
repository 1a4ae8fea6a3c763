import Mathlib.Data.List.Nodup
import Mathlib.Data.List.Sort
import Tickr.JsonText
import Tickr.Message

/-! The headers column. A header map is written as a JSON object with its keys in order and read
back from whatever text the database prints for the object it has stored: a JSON column keeps
neither the order of the members nor the blanks and escapes of the text it was given. -/
namespace Tickr

open JsonText

/-! ### Writing -/

def hexChar (n : Nat) : Char := "0123456789abcdef".toList.getD n '0'

def shortEscape : Char → Option Char
  | '"' => some '"'
  | '\\' => some '\\'
  | '\x08' => some 'b'
  | '\x0c' => some 'f'
  | '\n' => some 'n'
  | '\r' => some 'r'
  | '\t' => some 't'
  | _ => none

/-- A character inside a string literal, with the escapes for HTML and JavaScript. -/
def appendChar (c : Char) : List Char :=
  match shortEscape c with
  | some e => ['\\', e]
  | none =>
    if c < ' ' ∨ c = '<' ∨ c = '>' ∨ c = '&' then
      ['\\', 'u', '0', '0', hexChar (c.toNat / 16), hexChar (c.toNat % 16)]
    else if c = '\u2028' ∨ c = '\u2029' then ['\\', 'u', '2', '0', '2', hexChar (c.toNat % 16)]
    else [c]

def appendString (s : String) : List Char := s.toList.flatMap appendChar

def appendMember (e : String × String) : List Char :=
  '"' :: (appendString e.1 ++ '"' :: ':' :: '"' :: (appendString e.2 ++ ['"']))

/-- The members and the closing brace. -/
def appendMembers : Headers → List Char
  | [] => ['}']
  | [e] => appendMember e ++ ['}']
  | e :: es => appendMember e ++ ',' :: appendMembers es

def keyOrder (a b : String × String) : Prop := a.1 ≤ b.1

instance : DecidableRel keyOrder := fun a b => inferInstanceAs (Decidable (a.1 ≤ b.1))

/-- A map has no order, its text has that of the keys. -/
def encodeHeaders (h : Headers) : List Char :=
  if h = [] then ['{', '}'] else '{' :: appendMembers (h.insertionSort keyOrder)

/-! ### Reading -/

/-- What a member leaves in a map of strings: null and values of other kinds leave the zero value. -/
def memberValue : Json → String
  | .str v => String.ofList v
  | _ => ""

/-- A later member of the same name replaces an earlier one. -/
def setMember (m : Headers) (e : List Char × Json) : Headers :=
  m.filter (fun old => old.1 ≠ String.ofList e.1) ++ [(String.ofList e.1, memberValue e.2)]

/-- The error of the decoder is dropped; a text that is no JSON leaves the map as it was. -/
def decodeHeaders (text : List Char) : Headers :=
  if text = [] then []
  else match parse text with
    | some (.obj members) => members.foldl setMember []
    | _ => []

/-- A text that a JSON column with these members may come back as. -/
def Prints (stored : List (List Char × Json)) (text : List Char) : Prop :=
  ∃ es, (es.map fun e => (e.1, Json.str e.2)).Perm stored ∧ ObjectText es text

/-! ### Round trip -/

theorem hexDigit_hexChar : ∀ n < 16, hexDigit (hexChar n) = some n := by decide

theorem unescape_shortEscape {c e : Char} (escape : shortEscape c = some e) : unescape e = some c := by
  unfold shortEscape at escape
  split at escape <;> cases escape <;> rfl

theorem shortEscape_none {c : Char} (plain : shortEscape c = none) : c ≠ '"' ∧ c ≠ '\\' := by
  constructor <;> rintro rfl <;> cases plain

theorem appendChar_spells (c : Char) : ∃ us, Spells c us ∧ Written us (appendChar c) := by
  have coded {t : List Char} (small : c.toNat < 0x10000) (writes : Writes (.code c.toNat) t) :
      ∃ us, Spells c us ∧ Written us t :=
    ⟨[.code c.toNat],.code small,by simpa using Written.cons writes .nil⟩
  have itself {t : List Char} (writes : Writes (.char c) t) : ∃ us, Spells c us ∧ Written us t :=
    ⟨[.char c],.self,by simpa using Written.cons writes .nil⟩
  unfold appendChar
  split
  · rename_i e escape
    exact itself (.short (unescape_shortEscape escape))
  · rename_i plain
    split
    · rename_i special
      have small : c.toNat < 0x80 := by
        rcases special with control | rfl | rfl | rfl
        · exact Nat.lt_trans (show c.toNat < 0x20 from control) (by decide)
        · decide
        · decide
        · decide
      refine coded (Nat.lt_trans small (by decide)) (.hex ?_)
      have zero : hexDigit '0' = some 0 := rfl
      rw [hex4, zero, hexDigit_hexChar _ (by omega), hexDigit_hexChar _ (by omega)]
      simp only [Option.bind_eq_bind, Option.bind_some, Option.some.injEq]
      omega
    · rename_i ordinary
      split
      · rename_i separator
        rcases separator with rfl | rfl <;> exact coded (by decide) (.hex (by decide))
      · have visible : ¬c < ' ' := fun control => ordinary (Or.inl control)
        obtain ⟨unquoted,unescaped⟩ := shortEscape_none plain
        exact itself (.raw visible unquoted unescaped)

theorem appendString_text (s : String) : StringText s.toList (appendString s) := by
  unfold appendString
  induction s.toList with
  | nil => exact .nil
  | cons c rest ih =>
    obtain ⟨us,spells,written⟩ := appendChar_spells c
    exact .cons spells written ih

def textOf (e : String × String) : List Char × List Char := (e.1.toList, e.2.toList)

theorem appendMember_text (e : String × String) : MemberText (textOf e) (appendMember e) := by
  have none : Blank [] := fun _ impossible => absurd impossible List.not_mem_nil
  exact .member none (appendString_text e.1) none none (appendString_text e.2) none

theorem appendMembers_text {h : Headers} (filled : h ≠ []) : MembersText (h.map textOf) (appendMembers h) := by
  induction h with
  | nil => exact absurd rfl filled
  | cons e es ih =>
    cases es with
    | nil => exact .last (appendMember_text e)
    | cons e' rest => exact .more (appendMember_text e) (ih (List.cons_ne_nil _ _))

theorem encodeHeaders_text (h : Headers) :
    ObjectText ((h.insertionSort keyOrder).map textOf) (encodeHeaders h) := by
  have none : Blank [] := fun _ impossible => absurd impossible List.not_mem_nil
  unfold encodeHeaders
  split
  · rename_i empty
    rw [empty]
    exact .empty none none none
  · rename_i filled
    have sorted : h.insertionSort keyOrder ≠ [] := fun empty =>
      filled (List.perm_nil.mp (empty ▸ (List.perm_insertionSort keyOrder h).symm))
    have text := ObjectText.members none (appendMembers_text sorted) none
    rwa [List.append_nil] at text

/-- What a member is in the map. -/
def entryOf (e : List Char × Json) : String × String := (String.ofList e.1, memberValue e.2)

/-- Members of different names end up side by side. -/
theorem foldl_setMember {members : List (List Char × Json)} (m : Headers)
    (distinct : ((m ++ members.map entryOf).map Prod.fst).Nodup) :
    members.foldl setMember m = m ++ members.map entryOf := by
  induction members generalizing m with
  | nil => rw [List.map_nil, List.append_nil, List.foldl_nil]
  | cons e rest ih =>
    have split : m ++ (e :: rest).map entryOf = (m ++ [entryOf e]) ++ rest.map entryOf := by simp
    rw [split] at distinct ⊢
    have new : m.filter (fun old => old.1 ≠ String.ofList e.1) = m := by
      refine List.filter_eq_self.mpr fun old member => decide_eq_true fun same => ?_
      rw [List.append_assoc, List.map_append, List.nodup_append] at distinct
      exact distinct.2.2 _ (List.mem_map_of_mem member) _ (List.mem_map_of_mem List.mem_cons_self) same
    rw [List.foldl_cons, setMember, new]
    exact ih (m ++ [entryOf e]) distinct

/-- The members of the column that `encodeHeaders` fills. -/
def storedMembers (h : Headers) : List (List Char × Json) :=
  (h.insertionSort keyOrder).map fun e => (e.1.toList, .str e.2.toList)

theorem storedMembers_entries (h : Headers) : (storedMembers h).map entryOf = h.insertionSort keyOrder := by
  have back : (entryOf ∘ fun e : String × String => (e.1.toList, Json.str e.2.toList)) = id := by
    funext e
    simp [entryOf, memberValue, Function.comp]
  rw [storedMembers, List.map_map, back, List.map_id]

theorem decodeHeaders_prints {h : Headers} (distinct : (h.map Prod.fst).Nodup) {text : List Char}
    (printed : Prints (storedMembers h) text) : (decodeHeaders text).Perm h := by
  obtain ⟨es,same,written⟩ := printed
  have entries : ((es.map fun e => (e.1, Json.str e.2)).map entryOf).Perm h := by
    refine (same.map entryOf).trans ?_
    rw [storedMembers_entries]
    exact List.perm_insertionSort keyOrder h
  have apart : (((es.map fun e => (e.1, Json.str e.2)).map entryOf).map Prod.fst).Nodup :=
    (entries.map Prod.fst).nodup_iff.mpr distinct
  rw [decodeHeaders, if_neg written.nonempty, parse_object written]
  simp only [foldl_setMember [] apart, List.nil_append]
  exact entries

theorem storedMembers_text (h : Headers) :
    ((h.insertionSort keyOrder).map textOf).map (fun e => (e.1, Json.str e.2)) = storedMembers h := List.map_map ..

theorem encodeHeaders_prints (h : Headers) : Prints (storedMembers h) (encodeHeaders h) :=
  ⟨_,by rw [storedMembers_text],encodeHeaders_text h⟩

/-- Headers whose texts are valid UTF-8 survive the column: the text that is written for a map is a
JSON object of its entries, and every text that the database may print for that object is read as
the same map. -/
theorem headers_round_trip (h : Headers) (distinct : (h.map Prod.fst).Nodup) :
    parse (encodeHeaders h) = some (.obj (storedMembers h)) ∧ Prints (storedMembers h) (encodeHeaders h) ∧
      ∀ text, Prints (storedMembers h) text → (decodeHeaders text).Perm h := by
  refine ⟨?_,encodeHeaders_prints h,fun text printed => decodeHeaders_prints distinct printed⟩
  rw [parse_object (encodeHeaders_text h), storedMembers_text]

/-- A quote, a line break, markup, a line separator and a character beyond the basic plane. -/
def oddHeaders : Headers := [("trace", "a\"b\n<c>"), ("note", "\u2028 é 😀")]

theorem headers_round_trip_odd :
    (oddHeaders.map Prod.fst).Nodup ∧ parse (encodeHeaders oddHeaders) = some (.obj (storedMembers oddHeaders)) ∧
    Prints (storedMembers oddHeaders) (encodeHeaders oddHeaders) ∧
    ∀ text, Prints (storedMembers oddHeaders) text → (decodeHeaders text).Perm oddHeaders :=
  have distinct : (oddHeaders.map Prod.fst).Nodup := by decide
  ⟨distinct,headers_round_trip oddHeaders distinct⟩

end Tickr
