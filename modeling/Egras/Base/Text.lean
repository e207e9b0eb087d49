import Egras.Base.Time
import Mathlib.Data.List.Infix
import Mathlib.Tactic.Lemma

/-!
# Text

The operations on `&str` that the service uses, on Lean's strings. `len` counts UTF-8 bytes,
`chars().count()` is `String.length`.

Rust → Lean naming: `strip_prefix` → `stripPrefix`, `splitn` → `splitN`, `trim` → `trimWs`,
`is_ascii_hexdigit` → `isAsciiHexdigit`, `hex::encode` → `hexEncode`, `hex::decode` → `hexDecode`,
`HeaderValue::to_str` → `headerToStr`; Postgres' `LIKE` →
`like`.
-/

namespace Egras

/-- The characters with the Unicode property `White_Space`, which `str::trim` strips. -/
def isWhiteSpace (c : Char) : Bool :=
  let n := c.toNat
  (9 ≤ n && n ≤ 13) || n = 0x20 || n = 0x85 || n = 0xA0 || n = 0x1680 ||
    (0x2000 ≤ n && n ≤ 0x200A) || n = 0x2028 || n = 0x2029 || n = 0x202F || n = 0x205F ||
    n = 0x3000

/-- Strip white space at both ends. -/
def trimWs (s : String) : String :=
  String.ofList (((s.toList.dropWhile isWhiteSpace).reverse.dropWhile isWhiteSpace).reverse)

/-- The rest of `s` after the prefix `p`. -/
def stripPrefix (p s : String) : Option String :=
  if p.toList.isPrefixOf s.toList then some (String.ofList (s.toList.drop p.toList.length))
  else none

/-- Whether `p` occurs in `s` (`str::contains`). -/
def containsStr (p s : String) : Bool := decide (p.toList <:+: s.toList)

/-- Split at the first `n - 1` occurrences of a separator, into at most `n` parts. -/
def splitN : ℕ → Char → List Char → List (List Char)
  | 0, _, _ => []
  | 1, _, cs => [cs]
  | n + 2, sep, cs =>
    match cs.dropWhile (· ≠ sep) with
    | [] => [cs]
    | _ :: rest => cs.takeWhile (· ≠ sep) :: splitN (n + 1) sep rest

/-- A part before the first separator. -/
lemma splitN_append {n : ℕ} {sep : Char} {front back : List Char} (h : sep ∉ front) :
    splitN (n + 2) sep (front ++ sep :: back) = front :: splitN (n + 1) sep back := by
  have hfront : ∀ c ∈ front, decide (c ≠ sep) = true :=
    fun c hc => decide_eq_true fun heq => h (heq ▸ hc)
  rw [splitN, List.dropWhile_append_of_pos hfront, List.takeWhile_append_of_pos hfront,
    List.dropWhile_cons_of_neg (by simp), List.takeWhile_cons_of_neg (by simp), List.append_nil]

/-- `0`–`9`, `a`–`f` and `A`–`F`. -/
def isAsciiHexdigit (c : Char) : Bool :=
  ('0' ≤ c && c ≤ '9') || ('a' ≤ c && c ≤ 'f') || ('A' ≤ c && c ≤ 'F')

/-- A header value as text, when all its bytes are visible ASCII, spaces or tabs. -/
def headerToStr (bytes : List UInt8) : Option String :=
  if bytes.all (fun b => (32 ≤ b && b < 127) || b = 9) then
    some (String.ofList (bytes.map (fun b => Char.ofNat b.toNat)))
  else none

/-- A text of visible ASCII, sent as its codes. -/
lemma headerToStr_visible {s : String} (h : ∀ c ∈ s.toList, 32 ≤ c.toNat ∧ c.toNat < 127) :
    headerToStr (s.toList.map (fun c => UInt8.ofNat c.toNat)) = some s := by
  have hbyte : ∀ c ∈ s.toList, (UInt8.ofNat c.toNat).toNat = c.toNat := by
    intro c hc
    have hvisible := h c hc
    rw [UInt8.toNat_ofNat']
    exact Nat.mod_eq_of_lt (by omega)
  have hchars : (s.toList.map (fun c => UInt8.ofNat c.toNat)).map (fun b => Char.ofNat b.toNat) =
      s.toList := by
    rw [List.map_map]
    refine (List.map_congr_left fun c hc => ?_).trans (List.map_id _)
    show Char.ofNat (UInt8.ofNat c.toNat).toNat = c
    rw [hbyte c hc, Char.ofNat_toNat]
  unfold headerToStr
  rw [if_pos, hchars, String.ofList_toList]
  refine List.all_eq_true.mpr fun b hb => ?_
  obtain ⟨c, hc, rfl⟩ := List.mem_map.mp hb
  simp only [Bool.or_eq_true, Bool.and_eq_true, decide_eq_true_eq, UInt8.le_iff_toNat_le,
    UInt8.lt_iff_toNat_lt, hbyte c hc]
  exact Or.inl (h c hc)

/-- The lowercase hexadecimal digit of a number below 16. -/
def hexDigit (n : ℕ) : Char := Char.ofNat (if n < 10 then 48 + n else 87 + n)

/-- Lowercase hexadecimal digits of some bytes (`hex::encode`). -/
def hexEncode (bytes : List UInt8) : String :=
  String.ofList (bytes.flatMap (fun b => [hexDigit (b.toNat / 16), hexDigit (b.toNat % 16)]))

/-- The number a hexadecimal digit stands for. -/
def hexValue (c : Char) : Option ℕ :=
  if '0' ≤ c && c ≤ '9' then some (c.toNat - 48)
  else if 'a' ≤ c && c ≤ 'f' then some (c.toNat - 87)
  else if 'A' ≤ c && c ≤ 'F' then some (c.toNat - 55)
  else none

/-- The bytes that hexadecimal digits of either case stand for (`hex::decode`). -/
def hexDecode : List Char → Option (List UInt8)
  | [] => some []
  | [_] => none
  | hi :: lo :: rest => do
    let hi ← hexValue hi
    let lo ← hexValue lo
    let bytes ← hexDecode rest
    return UInt8.ofNat (16 * hi + lo) :: bytes

/-- An identifier as text, in the hyphenated form (`Uuid::to_string`). -/
def uuidToString (u : Uuid) : String :=
  let digits (i n : ℕ) : List Char :=
    (List.range n).map (fun j => hexDigit (u.toNat / 16 ^ (31 - (i + j)) % 16))
  String.ofList (digits 0 8 ++ '-' :: digits 8 4 ++ '-' :: digits 12 4 ++ '-' :: digits 16 4 ++
    '-' :: digits 20 12)

/-- A digit is no dash, no bar and no quote. -/
lemma hexDigit_ne : ∀ n < 16, hexDigit n ≠ '-' ∧ hexDigit n ≠ '|' ∧ hexDigit n ≠ '"' := by decide

/-- The text of an identifier has digits and dashes. -/
lemma mem_uuidToString {u : Uuid} {c : Char} (h : c ∈ (uuidToString u).toList) :
    c = '-' ∨ ∃ n < 16, c = hexDigit n := by
  unfold uuidToString at h
  simp only [String.toList_ofList, List.mem_append, List.mem_cons, List.mem_map] at h
  have hdigit : ∀ x, x % 16 < 16 := fun x => Nat.mod_lt x (by decide)
  grind

/-- The characters of a pattern matched against the whole of a text: `%` stands for any
characters, `_` for one, and a backslash takes the next character as it is. -/
def like : List Char → List Char → Bool
  | [], cs => cs.isEmpty
  | '%' :: ps, cs => cs.tails.any (fun rest => like ps rest)
  | '_' :: ps, cs =>
    match cs with
    | [] => false
    | _ :: rest => like ps rest
  | ['\\'], _ => false
  | '\\' :: p :: ps, cs =>
    match cs with
    | [] => false
    | c :: rest => c = p && like ps rest
  | p :: ps, cs =>
    match cs with
    | [] => false
    | c :: rest => c = p && like ps rest

/-- The loop appends the bytes that are left. -/
lemma toList_loop (bytes : ByteArray) (n i : ℕ) (acc : List UInt8) (h : i + n = bytes.size) :
    ByteArray.toList.loop bytes i acc = acc.reverse ++ bytes.data.toList.drop i := by
  induction n generalizing i acc with
  | zero =>
    have hend : ¬ i < bytes.size := by omega
    have hsize : bytes.data.toList.length ≤ i := by
      rw [Array.length_toList, ByteArray.size_data]
      omega
    rw [ByteArray.toList.loop, if_neg hend, List.drop_eq_nil_of_le hsize, List.append_nil]
  | succ n ih =>
    have hmore : i < bytes.size := by omega
    have hi : i < bytes.data.toList.length := by
      rw [Array.length_toList, ByteArray.size_data]
      exact hmore
    have hget : bytes.get! i = bytes.data.toList[i] := by
      rw [Array.getElem_toList]
      exact getElem!_pos bytes.data i _
    rw [ByteArray.toList.loop, if_pos hmore, ih _ _ (by omega), List.reverse_cons, List.append_assoc,
      hget, List.drop_eq_getElem_cons hi]
    rfl

/-- The bytes of a text read back as text. -/
lemma fromUTF8_toUTF8 (s : String) : String.fromUTF8? ⟨s.toUTF8.toList.toArray⟩ = some s := by
  have hlist : s.toUTF8.toList = s.toUTF8.data.toList := by
    unfold ByteArray.toList
    rw [toList_loop s.toUTF8 s.toUTF8.size 0 [] (Nat.zero_add _)]
    rfl
  rw [hlist, Array.toArray_toList]
  unfold String.fromUTF8?
  exact dif_pos s.isValidUTF8

end Egras
