import Egras.Base.Codecs
import Egras.Db.Seeds
import Egras.Security.Secrets
import Mathlib.Data.String.Basic

/-!
# The wire format of API keys

A key is spelled `egras_<env>_<prefix>_<secret>`, and the secret may hold underscores itself. Parsing
stops at the second underscore after the scheme, so a text is a key exactly when it is spelled by an
environment without underscores, a prefix of eight hexadecimal digits and a secret that is not empty
(`ParsedKey.parse_eq_some_iff`), no text is spelled in two ways, and a generated key parses back to
its parts whatever its secret looks like (`keys_parse`).
-/

namespace Egras
open Lib

/-- A text spells a key with these parts. -/
structure ParsedKey.Spelled (k : ParsedKey) (s : String) : Prop where
  text : s = "egras_" ++ k.env ++ "_" ++ k.keyPrefix ++ "_" ++ k.secret
  env : '_' ∉ k.env.toList
  length : k.keyPrefix.length = 8
  digits : ∀ c ∈ k.keyPrefix.toList, isAsciiHexdigit c = true
  secret : k.secret ≠ ""

section Texts
variable {n : ℕ} {sep : Char} {cs front a b c : List Char} {rest : List (List Char)} {p s body : String}

/-- Where the first of several parts ends. -/
lemma splitN_eq_cons (hrest : rest ≠ []) : splitN (n + 2) sep cs = front :: rest ↔
    ∃ back, cs = front ++ sep :: back ∧ sep ∉ front ∧ splitN (n + 1) sep back = rest := by
  constructor
  · intro h
    unfold splitN at h
    split at h
    · cases h
      exact absurd rfl hrest
    · rename_i d back hdrop
      obtain ⟨rfl, rfl⟩ := List.cons.inj h
      have hd : decide (d ≠ sep) = false := by
        have hhead := List.head?_dropWhile_not (fun c => decide (c ≠ sep)) cs
        rw [hdrop] at hhead
        exact hhead
      obtain rfl : d = sep := by simpa using hd
      refine ⟨back, ?_, fun hmem => ?_, rfl⟩
      · rw [← hdrop, List.takeWhile_append_dropWhile]
      · have hall := List.all_eq_true.mp (List.all_takeWhile (p := fun c => decide (c ≠ d)) (l := cs))
        simpa using hall d hmem
  · rintro ⟨back, rfl, hfront, rfl⟩
    exact splitN_append hfront

/-- A text in three parts has its separators between them. -/
lemma splitN_three : splitN 3 sep cs = [a, b, c] ↔
    cs = a ++ sep :: (b ++ sep :: c) ∧ sep ∉ a ∧ sep ∉ b := by
  rw [splitN_eq_cons (by simp)]
  constructor
  · rintro ⟨back, rfl, ha, hback⟩
    obtain ⟨back', rfl, hb, hlast⟩ := (splitN_eq_cons (by simp)).mp hback
    cases hlast
    exact ⟨rfl, ha, hb⟩
  · rintro ⟨rfl, ha, hb⟩
    exact ⟨_, rfl, ha, (splitN_eq_cons (by simp)).mpr ⟨c, rfl, hb, rfl⟩⟩

/-- A prefix that is stripped was there. -/
lemma stripPrefix_eq_some : stripPrefix p s = some body ↔ s = p ++ body := by
  unfold stripPrefix
  constructor
  · intro h
    split at h
    · rename_i hpre
      obtain ⟨rest, hrest⟩ := List.isPrefixOf_iff_prefix.mp hpre
      rw [← hrest, List.drop_left' rfl] at h
      cases h
      refine String.toList_inj.mp ?_
      rw [String.toList_append, String.toList_ofList, hrest]
    · cases h
  · rintro rfl
    rw [String.toList_append, if_pos (List.isPrefixOf_iff_prefix.mpr (List.prefix_append _ _)),
      List.drop_left' rfl, String.ofList_toList]

/-- A hexadecimal digit is one byte long. -/
lemma utf8Size_of_isAsciiHexdigit {d : Char} (h : isAsciiHexdigit d = true) : d.utf8Size = 1 := by
  refine Char.utf8Size_eq_one_iff.mpr ?_
  simp only [isAsciiHexdigit, Bool.or_eq_true, Bool.and_eq_true, decide_eq_true_eq] at h
  rcases h with (⟨-, h⟩ | ⟨-, h⟩) | ⟨-, h⟩
  · exact UInt32.le_trans h (by decide)
  · exact UInt32.le_trans h (by decide)
  · exact UInt32.le_trans h (by decide)

/-- So are hexadecimal digits together. -/
lemma utf8ByteSize_of_isAsciiHexdigit {digits : List Char}
    (h : ∀ d ∈ digits, isAsciiHexdigit d = true) :
    (String.ofList digits).utf8ByteSize = digits.length := by
  rw [String.utf8ByteSize_ofList]
  induction digits with
  | nil => rfl
  | cons d digits ih =>
    rw [String.utf8Len, ih (fun e he => h e (List.mem_cons_of_mem _ he)),
      utf8Size_of_isAsciiHexdigit (h d List.mem_cons_self), List.length_cons]

end Texts

/-! ## Parsing -/

section Parse
variable {k k' : ParsedKey} {s : String}

/-- A text parses to the parts that spell it. -/
theorem ParsedKey.parse_eq_some_iff : ParsedKey.parse s = some k ↔ k.Spelled s := by
  unfold parse
  constructor
  · intro h
    split at h
    · cases h
    · rename_i body hbody
      split at h
      · rename_i env keyPrefix secret hsplit
        obtain ⟨hlist, henv, -⟩ := splitN_three.mp hsplit
        split at h
        · cases h
        · rename_i hpre
          simp only [Bool.or_eq_true, decide_eq_true_eq, not_or, not_not, Bool.not_eq_true',
            Bool.not_eq_false] at hpre
          obtain ⟨hsize, hdigits⟩ := hpre
          have hall := List.all_eq_true.mp hdigits
          split at h
          · cases h
          · rename_i hsecret
            cases h
            refine ⟨?_, by rwa [String.toList_ofList], ?_, by rwa [String.toList_ofList], ?_⟩
            · refine String.toList_inj.mp ?_
              rw [stripPrefix_eq_some.mp hbody]
              simp [hlist]
            -- the source counts bytes, and hex digits take one each
            · rw [← hsize, utf8ByteSize_of_isAsciiHexdigit hall, String.length_ofList]
            · rintro hempty
              exact hsecret (by simpa using hempty)
      · cases h
  · rintro ⟨htext, henv, hlength, hdigits, hsecret⟩
    have hstrip : stripPrefix "egras_" s =
        some (k.env ++ "_" ++ k.keyPrefix ++ "_" ++ k.secret) := by
      rw [stripPrefix_eq_some, htext]
      simp only [String.append_assoc]
    -- only the secret may contain the separator
    have hseparator : '_' ∉ k.keyPrefix.toList := by
      intro hmem
      have hdigit := hdigits _ hmem
      revert hdigit
      decide
    have hsplit : splitN 3 '_' (k.env ++ "_" ++ k.keyPrefix ++ "_" ++ k.secret).toList =
        [k.env.toList, k.keyPrefix.toList, k.secret.toList] := by
      refine splitN_three.mpr ⟨?_, henv, hseparator⟩
      simp
    have hsize : (String.ofList k.keyPrefix.toList).utf8ByteSize = 8 := by
      rw [utf8ByteSize_of_isAsciiHexdigit hdigits, String.length_toList, hlength]
    have hfilled : k.secret.toList.isEmpty = false := by
      rw [List.isEmpty_eq_false_iff]
      exact fun hempty => hsecret (String.toList_eq_nil_iff.mp hempty)
    rw [hstrip]
    dsimp only
    rw [hsplit]
    dsimp only
    rw [hsize, List.all_eq_true.mpr hdigits, hfilled]
    simp

/-- No text spells two keys. -/
theorem ParsedKey.Spelled.unique (h : k.Spelled s) (h' : k'.Spelled s) : k = k' :=
  Option.some.inj ((parse_eq_some_iff.mpr h).symm.trans (parse_eq_some_iff.mpr h'))

end Parse

/-! ## Generated keys -/

section Generate
variable [Base64] {w : World}

omit [Base64] in
/-- The text of some bytes has digits only. -/
lemma mem_hexEncode {bytes : List UInt8} {c : Char} (h : c ∈ (hexEncode bytes).toList) :
    isAsciiHexdigit c = true := by
  have hdigit : ∀ n < 16, isAsciiHexdigit (hexDigit n) = true := by decide
  unfold hexEncode at h
  rw [String.toList_ofList] at h
  obtain ⟨b, -, hb⟩ := List.mem_flatMap.mp h
  have hsmall := b.toNat_lt
  rcases List.mem_cons.mp hb with rfl | hb
  · exact hdigit _ (by omega)
  · cases List.mem_singleton.mp hb
    exact hdigit _ (Nat.mod_lt _ (by decide))

omit [Base64] in
/-- Two digits a byte. -/
lemma length_hexEncode {bytes : List UInt8} : (hexEncode bytes).length = 2 * bytes.length := by
  unfold hexEncode
  rw [String.length_ofList]
  induction bytes with
  | nil => rfl
  | cons b bytes ih =>
    rw [List.flatMap_cons, List.length_append, ih, List.length_cons, List.length_cons,
      List.length_cons, List.length_nil]
    omega

/-- The key that is made of drawn bytes. -/
lemma run_generateKey {ε : Type} {prefixBytes secretBytes : List UInt8} {random : List (List UInt8)}
    (hpre : prefixBytes.length = 4) (hsecret : secretBytes.length = 32) :
    (generateKey : Action ε GeneratedKey).run
        { w with random := prefixBytes :: secretBytes :: random } =
      (.ok ⟨hexEncode prefixBytes, "egras_" ++ "live" ++ "_" ++ hexEncode prefixBytes ++ "_" ++
        Base64.urlSafeEncode secretBytes, Base64.urlSafeEncode secretBytes⟩,
        { w with random := random }) := by
  have hdraw : ∀ {n : ℕ} {bytes : List UInt8}, bytes.length = n → bytes.takeD n 0 = bytes := by
    rintro n bytes rfl
    rw [List.takeD_eq_take 0 (Nat.le_refl _), List.take_length]
  unfold generateKey randomBytes
  simp only [Prog.run_bind, Prog.run_lift, List.headD_cons, List.tail_cons, hdraw hpre,
    hdraw hsecret]
  rfl

end Generate

/-- A text is a key exactly when it is spelled by the parts it parses to, in one way only, and a
generated key parses to its own parts. -/
theorem keys_parse [Base64]
    (hfilled : ∀ bytes : List UInt8, bytes.length = 32 → Base64.urlSafeEncode bytes ≠ "") :
    (∀ s env keyPrefix secret, ParsedKey.parse s = some ⟨env, keyPrefix, secret⟩ ↔
      s = "egras_" ++ env ++ "_" ++ keyPrefix ++ "_" ++ secret ∧ '_' ∉ env.toList ∧
        keyPrefix.length = 8 ∧ (∀ c ∈ keyPrefix.toList, isAsciiHexdigit c = true) ∧ secret ≠ "") ∧
    (∀ s k k', ParsedKey.Spelled k s → ParsedKey.Spelled k' s → k = k') ∧
    ∀ (w : World) (prefixBytes secretBytes : List UInt8) (random : List (List UInt8)),
      prefixBytes.length = 4 → secretBytes.length = 32 →
      ∃ g w', (generateKey : Action Anyhow GeneratedKey).run
          { w with random := prefixBytes :: secretBytes :: random } = (.ok g, w') ∧
        g.keyPrefix = hexEncode prefixBytes ∧ g.secret = Base64.urlSafeEncode secretBytes ∧
        ParsedKey.parse g.plaintext = some ⟨"live", g.keyPrefix, g.secret⟩ := by
  refine ⟨fun s env keyPrefix secret => ?_, fun s k k' h h' => h.unique h',
    fun w prefixBytes secretBytes random hpre hsecret => ?_⟩
  · rw [ParsedKey.parse_eq_some_iff]
    exact ⟨fun h => ⟨h.text, h.env, h.length, h.digits, h.secret⟩,
      fun ⟨htext, henv, hlength, hdigits, hsecret⟩ => ⟨htext, henv, hlength, hdigits, hsecret⟩⟩
  · have hlive : '_' ∉ "live".toList := by decide
    refine ⟨_, _, run_generateKey hpre hsecret, rfl, rfl, ParsedKey.parse_eq_some_iff.mpr
      ⟨rfl, hlive, ?_, fun c => mem_hexEncode, hfilled secretBytes hsecret⟩⟩
    rw [length_hexEncode, hpre]

/-- A key whose secret is full of underscores. -/
theorem keys_parse_underscores :
    ∃ g w', (@generateKey pagingPlatform.toBase64 Anyhow).run
        { World.calm .twoTenants 0 with
          random := [[0, 1, 254, 255], List.replicate 32 255] } = (.ok g, w') ∧
      g.keyPrefix = "0001feff" ∧ ParsedKey.parse g.plaintext = some ⟨"live", g.keyPrefix, g.secret⟩ := by
  let _ : Base64 := pagingPlatform.toBase64
  have hfilled : ∀ bytes : List UInt8, bytes.length = 32 → Base64.urlSafeEncode bytes ≠ "" := by
    intro bytes hlength hempty
    have hdecode : base64Decode (base64Encode bytes) = base64Decode "" := congrArg base64Decode hempty
    rw [base64Decode_encode] at hdecode
    cases hdecode
    cases hlength
  obtain ⟨g, w', hrun, hpre, -, hparse⟩ := (keys_parse hfilled).2.2 (.calm .twoTenants 0)
    [0, 1, 254, 255] (List.replicate 32 255) [] rfl rfl
  exact ⟨g, w', hrun, hpre.trans (by decide), hparse⟩

end Egras
