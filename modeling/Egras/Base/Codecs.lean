import Egras.Base.Platform
import Mathlib.Data.List.Induction
import Mathlib.Logic.Equiv.Nat

/-!
# Codecs for concrete runs

A platform whose cursors come back as they were. Base64 and the form of an identifier are the real
ones, cursors are the JSON of `serde_json`; of the instants only the epoch is written as it should be,
all others in unary.
-/

namespace Egras

/-! ## Base64 -/

/-- The character of six bits. -/
def sextetChar (n : ℕ) : Char :=
  if n < 26 then Char.ofNat (65 + n) else if n < 52 then Char.ofNat (71 + n)
  else if n < 62 then Char.ofNat (n - 4) else if n = 62 then '-' else '_'

/-- The six bits of a character. -/
def sextetValue (c : Char) : Option ℕ :=
  if 'A' ≤ c && c ≤ 'Z' then some (c.toNat - 65)
  else if 'a' ≤ c && c ≤ 'z' then some (c.toNat - 71)
  else if '0' ≤ c && c ≤ '9' then some (c.toNat + 4)
  else if c = '-' then some 62 else if c = '_' then some 63 else none

/-- The bytes in groups of six bits. -/
def toSextets : List UInt8 → List ℕ
  | [] => []
  | [a] => [a.toNat / 4, a.toNat % 4 * 16]
  | [a, b] => [a.toNat / 4, a.toNat % 4 * 16 + b.toNat / 16, b.toNat % 16 * 4]
  | a :: b :: c :: rest => a.toNat / 4 :: (a.toNat % 4 * 16 + b.toNat / 16) ::
      (b.toNat % 16 * 4 + c.toNat / 64) :: c.toNat % 64 :: toSextets rest

/-- The bytes of groups of six bits. -/
def ofSextets : List ℕ → Option (List UInt8)
  | [] => some []
  | [_] => none
  | [w, x] => some [UInt8.ofNat (w * 4 + x / 16)]
  | [w, x, y] => some [UInt8.ofNat (w * 4 + x / 16), UInt8.ofNat (x % 16 * 16 + y / 4)]
  | w :: x :: y :: z :: rest => (ofSextets rest).map (fun bytes => UInt8.ofNat (w * 4 + x / 16) ::
      UInt8.ofNat (x % 16 * 16 + y / 4) :: UInt8.ofNat (y % 4 * 64 + z) :: bytes)

/-- Base64 text without padding. -/
def base64Encode (bytes : List UInt8) : String := String.ofList ((toSextets bytes).map sextetChar)

/-- The bytes of a Base64 text. -/
def base64Decode (s : String) : Option (List UInt8) := (s.toList.mapM sextetValue).bind ofSextets

/-- A digit has the value that it was written for. -/
lemma sextetValue_sextetChar : ∀ n < 64, sextetValue (sextetChar n) = some n := by decide

/-- Six bits are less than 64. -/
lemma toSextets_lt (bytes : List UInt8) : ∀ n ∈ toSextets bytes, n < 64 := by
  fun_induction toSextets bytes with
  | case1 => simp
  | case2 a =>
    have := a.toNat_lt
    simp
    omega
  | case3 a b =>
    have := a.toNat_lt
    have := b.toNat_lt
    simp
    omega
  | case4 a b c rest ih =>
    have := a.toNat_lt
    have := b.toNat_lt
    have := c.toNat_lt
    simp only [List.mem_cons, forall_eq_or_imp]
    exact ⟨by omega, by omega, by omega, by omega, ih⟩

/-- A byte is made up again from its high and its low part. -/
lemma ofNat_parts (a : UInt8) {n : ℕ} (h : n = a.toNat) : UInt8.ofNat n = a := by
  rw [h, UInt8.ofNat_toNat]

/-- The groups give the bytes back. -/
lemma ofSextets_toSextets (bytes : List UInt8) : ofSextets (toSextets bytes) = some bytes := by
  fun_induction toSextets bytes with
  | case1 => rfl
  | case2 a =>
    have := a.toNat_lt
    unfold ofSextets
    rw [ofNat_parts a (by omega)]
  | case3 a b =>
    have := a.toNat_lt
    have := b.toNat_lt
    unfold ofSextets
    rw [ofNat_parts a (by omega), ofNat_parts b (by omega)]
  | case4 a b c rest ih =>
    have := a.toNat_lt
    have := b.toNat_lt
    have := c.toNat_lt
    unfold ofSextets
    rw [ih, Option.map_some, ofNat_parts a (by omega), ofNat_parts b (by omega),
      ofNat_parts c (by omega)]

/-- The digits give the groups back. -/
lemma mapM_sextetValue (ns : List ℕ) (h : ∀ n ∈ ns, n < 64) :
    (ns.map sextetChar).mapM sextetValue = some ns := by
  induction ns with
  | nil => rfl
  | cons n ns ih =>
    rw [List.map_cons, List.mapM_cons, sextetValue_sextetChar n (h n List.mem_cons_self),
      ih fun m hm => h m (List.mem_cons_of_mem n hm)]
    rfl

/-- The text gives the bytes back. -/
lemma base64Decode_encode (bytes : List UInt8) : base64Decode (base64Encode bytes) = some bytes := by
  unfold base64Decode base64Encode
  rw [String.toList_ofList, mapM_sextetValue _ (toSextets_lt bytes)]
  exact ofSextets_toSextets bytes

/-! ## Identifiers -/

/-- The number that hexadecimal digits stand for. -/
def hexNumber (cs : List Char) : Option ℕ :=
  cs.foldl (fun n c => n.bind fun n => (hexValue c).map fun d => n * 16 + d) (some 0)

/-- The identifier that hexadecimal digits stand for, wherever the hyphens are. -/
def uuidOfText (s : String) : Option Uuid :=
  (hexNumber (s.toList.filter (· ≠ '-'))).map (BitVec.ofNat 128)

/-- A digit has the value that it was written for. -/
lemma hexValue_hexDigit : ∀ n < 16, hexValue (hexDigit n) = some n := by decide

/-- The digit of an identifier at a place. -/
def uuidDigit (u : Uuid) (i : ℕ) : Char := hexDigit (u.toNat / 16 ^ (31 - i) % 16)

/-- Without its dashes an identifier is its digits. -/
lemma filter_uuidToString (u : Uuid) :
    (uuidToString u).toList.filter (· ≠ '-') = (List.range 32).map (uuidDigit u) := by
  have hkeep : ∀ (is : List ℕ), (is.map (uuidDigit u)).filter (· ≠ '-') = is.map (uuidDigit u) := by
    intro is
    refine List.filter_eq_self.mpr fun c hc => ?_
    obtain ⟨i, -, rfl⟩ := List.mem_map.mp hc
    exact decide_eq_true (hexDigit_ne _ (Nat.mod_lt _ (by decide))).1
  have hform : (uuidToString u).toList =
      [0, 1, 2, 3, 4, 5, 6, 7].map (uuidDigit u) ++ '-' :: [8, 9, 10, 11].map (uuidDigit u) ++
        '-' :: [12, 13, 14, 15].map (uuidDigit u) ++ '-' :: [16, 17, 18, 19].map (uuidDigit u) ++
        '-' :: [20, 21, 22, 23, 24, 25, 26, 27, 28, 29, 30, 31].map (uuidDigit u) := by
    unfold uuidToString
    rw [String.toList_ofList]
    rfl
  have hhyphen : ∀ cs : List Char, ('-' :: cs).filter (· ≠ '-') = cs.filter (· ≠ '-') :=
    fun cs => List.filter_cons_of_neg (by decide)
  rw [hform]
  simp only [List.filter_append, hhyphen, hkeep]
  rfl

/-- The first digits are the leading ones of the number. -/
lemma hexNumber_digits (u : Uuid) (n : ℕ) (h : n ≤ 32) :
    hexNumber ((List.range n).map (uuidDigit u)) = some (u.toNat / 16 ^ (32 - n)) := by
  induction n with
  | zero =>
    have hlt : u.toNat < 16 ^ 32 := u.isLt
    rw [Nat.div_eq_of_lt hlt]
    rfl
  | succ n ih =>
    have hstep : 32 - n = 31 - n + 1 := by omega
    have hplace : 32 - (n + 1) = 31 - n := by omega
    unfold hexNumber at ih ⊢
    rw [List.range_succ, List.map_append, List.foldl_append, ih (by omega), hplace, hstep,
      Nat.pow_succ, ← Nat.div_div_eq_div_mul]
    simp only [List.map_cons, List.map_nil, List.foldl_cons, List.foldl_nil, Option.bind_some,
      uuidDigit, hexValue_hexDigit _ (Nat.mod_lt _ (by decide : 0 < 16)), Option.map_some,
      Nat.div_add_mod']

/-- The text of an identifier gives it back. -/
lemma uuidOfText_uuidToString (u : Uuid) : uuidOfText (uuidToString u) = some u := by
  unfold uuidOfText
  rw [filter_uuidToString, hexNumber_digits u 32 (Nat.le_refl _), Nat.sub_self, Nat.pow_zero,
    Nat.div_one, Option.map_some, BitVec.ofNat_toNat, BitVec.setWidth_eq]

/-! ## Instants -/

/-- An instant with the given text for the offset of UTC. -/
def instantText (utc : String) (t : Timestamp) : String :=
  if t = 0 then "1970-01-01T00:00:00" ++ utc
  else String.ofList (List.replicate (Equiv.intEquivNat t) '1')

/-- The instant that a text tells. -/
def instantOfText (utc s : String) : Option Timestamp :=
  if s = "1970-01-01T00:00:00" ++ utc then some 0
  else some (Equiv.intEquivNat.symm s.toList.length)

/-- The text of an instant gives it back. -/
lemma instantOfText_instantText (utc : String) (t : Timestamp) :
    instantOfText utc (instantText utc t) = some t := by
  unfold instantOfText instantText
  split
  · rename_i ht
    rw [if_pos rfl, ht]
  · rename_i ht
    have hne : String.ofList (List.replicate (Equiv.intEquivNat t) '1') ≠
        "1970-01-01T00:00:00" ++ utc := by
      intro h
      have hmem : '9' ∈ ("1970-01-01T00:00:00" ++ utc).toList := by
        rw [String.toList_append]
        exact List.mem_append_left _ (by decide)
      rw [← h, String.toList_ofList, List.mem_replicate] at hmem
      exact absurd hmem.2 (by decide)
    rw [if_neg hne, String.toList_ofList, List.length_replicate, Equiv.symm_apply_apply]

/-- A character that is in none of the parts is not in the text. -/
lemma not_mem_instantText {utc : String} {t : Timestamp} {c : Char} (hutc : c ∉ utc.toList)
    (hc : c ∉ "1970-01-01T00:00:00".toList) (hone : c ≠ '1') : c ∉ (instantText utc t).toList := by
  unfold instantText
  split
  · rw [String.toList_append, List.mem_append]
    exact fun h => h.elim hc hutc
  · rw [String.toList_ofList, List.mem_replicate]
    exact fun h => hone h.2

/-! ## Cursors -/

/-- A cursor with the instant and the identifier in the fields of these names. -/
def cursorJson (instant field : String) (c : Cursor) : List Char :=
  "\x7b".toList ++ '"' :: (instant.toList ++ '"' :: (":".toList ++ '"' ::
    ((instantText "Z" c.createdAt).toList ++ '"' :: (",".toList ++ '"' :: (field.toList ++ '"' ::
      (":".toList ++ '"' :: ((uuidToString c.id).toList ++ '"' :: "\x7d".toList)))))))

/-- The cursor that a JSON text tells. -/
def cursorOfJson (instant field : String) (cs : List Char) : Option Cursor :=
  match splitN 9 '"' cs with
  | [_, name, _, at_, _, name', _, id, _] => do
    let createdAt ← instantOfText "Z" (String.ofList at_)
    let id ← uuidOfText (String.ofList id)
    if name = instant.toList ∧ name' = field.toList then some ⟨createdAt, id⟩ else none
  | _ => none

/-- The JSON of a cursor gives it back. -/
lemma cursorOfJson_cursorJson {instant field : String} (hinstant : '"' ∉ instant.toList)
    (hfield : '"' ∉ field.toList) (c : Cursor) :
    cursorOfJson instant field (cursorJson instant field c) = some c := by
  have hat : '"' ∉ (instantText "Z" c.createdAt).toList :=
    not_mem_instantText (by decide) (by decide) (by decide)
  have hid : '"' ∉ (uuidToString c.id).toList := by
    intro h
    rcases mem_uuidToString h with hquote | ⟨n, hn, hquote⟩
    · exact absurd hquote (by decide)
    · exact (hexDigit_ne n hn).2.2 hquote.symm
  have hsplit : splitN 9 '"' (cursorJson instant field c) =
      ["\x7b".toList, instant.toList, ":".toList, (instantText "Z" c.createdAt).toList,
        ",".toList, field.toList, ":".toList, (uuidToString c.id).toList, "\x7d".toList] := by
    unfold cursorJson
    rw [splitN_append (by decide), splitN_append hinstant, splitN_append (by decide),
      splitN_append hat, splitN_append (by decide), splitN_append hfield, splitN_append (by decide),
      splitN_append hid]
    rfl
  unfold cursorOfJson
  rw [hsplit]
  dsimp only
  rw [String.ofList_toList, String.ofList_toList, instantOfText_instantText,
    uuidOfText_uuidToString]
  simp

/-- The cursor that a Base64 text tells. -/
def cursorOfBase64 (instant field s : String) : Option Cursor := do
  let bytes ← base64Decode s
  let json ← String.fromUTF8? ⟨bytes.toArray⟩
  cursorOfJson instant field json.toList

/-- The text form of a cursor: base64 of its JSON. -/
def cursorToBase64 (instant field : String) (c : Cursor) : String :=
  base64Encode (String.ofList (cursorJson instant field c)).toUTF8.toList

/-- The text of a cursor gives it back. -/
lemma cursorOfBase64_encode {instant field : String} (hinstant : '"' ∉ instant.toList)
    (hfield : '"' ∉ field.toList) (c : Cursor) :
    cursorOfBase64 instant field (cursorToBase64 instant field c) = some c := by
  unfold cursorOfBase64 cursorToBase64
  rw [base64Decode_encode, Option.bind_eq_bind, Option.bind_some, fromUTF8_toUTF8,
    Option.bind_eq_bind, Option.bind_some, String.toList_ofList,
    cursorOfJson_cursorJson hinstant hfield]

/-- The platform with these codecs. -/
@[reducible] def pagingPlatform : Platform where
  __ := plainPlatform
  urlSafeEncode := base64Encode
  urlSafeDecode := base64Decode
  encodeIdCursor := cursorToBase64 "created_at" "id"
  decodeIdCursor := cursorOfBase64 "created_at" "id"
  encodeUserCursor := cursorToBase64 "created_at" "user_id"
  decodeUserCursor := cursorOfBase64 "created_at" "user_id"
  toRfc3339 := instantText "+00:00"
  parseFromRfc3339 := instantOfText "+00:00"
  parseUuid := uuidOfText

end Egras
