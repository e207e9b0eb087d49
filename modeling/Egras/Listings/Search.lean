import Egras.Listings.Complete

/-!
# The query of the listing of users

`list_users` puts the query between two `%` and matches it with `ILIKE`, with no escape of the
characters that are special in a pattern. A query without them selects the users whose name or
e-mail contains it up to case (`like_contains`); a query with one of them also selects a user whose
name is an instance of the pattern and does not contain it (`not_infix_instance`). A query with the
character U+0000 is no parameter that the database takes: the request fails. So the query is taken
literally exactly when it has none of these characters (`listsLiterally_iff`).

The database is taken to lower the characters of a text one by one, as it does under a locale of the
C library.
-/

namespace Egras
open Lib

/-- The characters that are special in a pattern. -/
def isSpecial (c : Char) : Bool := c = '%' || c = '_' || c = '\\'

/-! ## Patterns -/

section Patterns
variable {q ps cs : List Char} {p : Char}

/-- A character that is not special stands for itself. -/
lemma like_literal_cons (hp : isSpecial p = false) :
    like (p :: ps) cs = true ↔ ∃ rest, cs = p :: rest ∧ like ps rest = true := by
  have hne : p ≠ '%' ∧ p ≠ '_' ∧ p ≠ '\\' := by
    simpa [isSpecial, and_assoc] using hp
  obtain ⟨hpercent, hunderscore, hbackslash⟩ := hne
  cases cs with
  | nil => simp [like, hbackslash]
  | cons c cs => simp [like, hbackslash, and_assoc]

/-- So does a text without special characters. -/
lemma like_literal_append (hq : ∀ c ∈ q, isSpecial c = false) :
    like (q ++ ps) cs = true ↔ ∃ rest, cs = q ++ rest ∧ like ps rest = true := by
  induction q generalizing cs with
  | nil => simp
  | cons c q ih =>
    have htail : ∀ {cs}, like (q ++ ps) cs = true ↔ ∃ rest, cs = q ++ rest ∧ like ps rest = true :=
      ih fun d hd => hq d (List.mem_cons_of_mem c hd)
    rw [List.cons_append, like_literal_cons (hq c List.mem_cons_self)]
    constructor
    · rintro ⟨rest, rfl, hrest⟩
      obtain ⟨rest', rfl, hlike⟩ := htail.mp hrest
      exact ⟨rest', rfl, hlike⟩
    · rintro ⟨rest, rfl, hlike⟩
      exact ⟨q ++ rest, rfl, htail.mpr ⟨rest, rfl, hlike⟩⟩

/-- A percent sign stands for any characters. -/
lemma like_percent_cons : like ('%' :: ps) cs = true ↔ ∃ rest, rest <:+ cs ∧ like ps rest = true := by
  rw [like, List.any_eq_true]
  simp only [List.mem_tails]

/-- The percent sign matches everything. -/
lemma like_percent_nil : like ['%'] cs = true :=
  like_percent_cons.mpr ⟨[], List.nil_suffix, rfl⟩

/-- A text without special characters between percent signs matches what contains it. -/
lemma like_contains (hq : ∀ c ∈ q, isSpecial c = false) :
    like ('%' :: (q ++ ['%'])) cs = true ↔ q <:+: cs := by
  rw [like_percent_cons]
  constructor
  · rintro ⟨rest, ⟨front, rfl⟩, hlike⟩
    obtain ⟨back, rfl, -⟩ := (like_literal_append hq).mp hlike
    exact ⟨front, back, List.append_assoc front q back⟩
  · rintro ⟨front, back, rfl⟩
    refine ⟨q ++ back, ⟨front, (List.append_assoc front q back).symm⟩, ?_⟩
    exact (like_literal_append hq).mpr ⟨back, rfl, like_percent_nil⟩

/-- A text that a pattern matches, with the first percent sign after the pattern when it ends in a
backslash. -/
def instanceOf : List Char → List Char
  | [] => []
  | '%' :: ps => 'a' :: instanceOf ps
  | '_' :: ps => 'a' :: instanceOf ps
  | ['\\'] => ['%']
  | '\\' :: p :: ps => p :: instanceOf ps
  | p :: ps => p :: instanceOf ps

/-- An instance is no longer than its pattern. -/
lemma length_instanceOf (q : List Char) : (instanceOf q).length ≤ q.length := by
  fun_induction instanceOf q with
  | case1 => exact Nat.le_refl _
  | case2 ps ih => exact Nat.succ_le_succ ih
  | case3 ps ih => exact Nat.succ_le_succ ih
  | case4 => exact Nat.le_refl _
  | case5 p ps ih => exact Nat.succ_le_succ (Nat.le_succ_of_le ih)
  | case6 p ps _ _ _ _ ih => exact Nat.succ_le_succ ih

variable {f : Char → Char} (hf : ∀ c d, isSpecial d = true → (f c = d ↔ c = d))
include hf

/-- A lowered character is special when it was. -/
lemma special_map {c : Char} : isSpecial (f c) = isSpecial c := by
  unfold isSpecial
  simp only [hf c '%' rfl, hf c '_' rfl, hf c '\\' rfl]

omit hf in
/-- A character that no special case of `instanceOf` takes. -/
lemma not_special (h1 : p = '%' → False) (h2 : p = '_' → False) (h3 : p = '\\' → ps = [] → False)
    (h4 : ∀ p' ps', p = '\\' → ps = p' :: ps' → False) : isSpecial p = false := by
  have hbackslash : p ≠ '\\' := by
    rintro rfl
    cases ps with
    | nil => exact h3 rfl rfl
    | cons p' ps' => exact h4 p' ps' rfl rfl
  have hpercent : p ≠ '%' := h1
  have hunderscore : p ≠ '_' := h2
  simp [isSpecial, hpercent, hunderscore, hbackslash]

/-- The instance of a pattern matches it. -/
lemma like_instance (q : List Char) :
    like (q.map f ++ ['%']) ((instanceOf q).map f) = true := by
  have hpercent : f '%' = '%' := (hf '%' '%' rfl).mpr rfl
  have hunderscore : f '_' = '_' := (hf '_' '_' rfl).mpr rfl
  have hbackslash : f '\\' = '\\' := (hf '\\' '\\' rfl).mpr rfl
  fun_induction instanceOf q with
  | case1 => exact like_percent_nil
  | case2 ps ih =>
    rw [List.map_cons, List.map_cons, hpercent, List.cons_append, like_percent_cons]
    exact ⟨_, List.suffix_cons _ _, ih⟩
  | case3 ps ih =>
    rw [List.map_cons, List.map_cons, hunderscore, List.cons_append, like]
    exact ih
  | case4 =>
    rw [List.map_cons, List.map_cons, hbackslash, hpercent]
    rfl
  | case5 p ps ih =>
    rw [List.map_cons, List.map_cons, List.map_cons, hbackslash, List.cons_append, List.cons_append,
      like]
    simp [ih]
  | case6 p ps h1 h2 h3 h4 ih =>
    have hp : isSpecial p = false := not_special h1 h2 h3 h4
    rw [List.map_cons, List.map_cons, List.cons_append, like_literal_cons]
    · exact ⟨_, rfl, ih⟩
    · rw [special_map hf, hp]

/-- The instance of a pattern with a special character is another text. -/
lemma not_special_of_instance (q : List Char) (h : q.map f = (instanceOf q).map f) :
    ∀ c ∈ q, isSpecial c = false := by
  have ha : f 'a' ≠ '%' ∧ f 'a' ≠ '_' := by
    rw [ne_eq, ne_eq, hf 'a' '%' rfl, hf 'a' '_' rfl]
    decide
  have hpercent : f '%' = '%' := (hf '%' '%' rfl).mpr rfl
  fun_induction instanceOf q with
  | case1 => exact fun c hc => absurd hc List.not_mem_nil
  | case2 ps ih =>
    rw [List.map_cons, List.map_cons, hpercent] at h
    exact absurd (List.cons.inj h).1.symm ha.1
  | case3 ps ih =>
    rw [List.map_cons, List.map_cons, (hf '_' '_' rfl).mpr rfl] at h
    exact absurd (List.cons.inj h).1.symm ha.2
  | case4 =>
    rw [List.map_cons, List.map_cons, hpercent, (hf '\\' '\\' rfl).mpr rfl] at h
    exact absurd (List.cons.inj h).1 (by decide)
  | case5 p ps ih =>
    -- the escaped character alone is too short
    have hlength := congrArg List.length h
    have hshort := length_instanceOf ps
    simp only [List.map_cons, List.length_cons, List.length_map] at hlength
    omega
  | case6 p ps h1 h2 h3 h4 ih =>
    rw [List.map_cons, List.map_cons] at h
    intro c hc
    rcases List.mem_cons.mp hc with rfl | hc
    · exact not_special h1 h2 h3 h4
    · exact ih (List.cons.inj h).2 c hc

/-- The instance of a pattern does not contain the pattern when there is a special character. -/
lemma not_infix_instance (q : List Char) (hq : ¬ ∀ c ∈ q, isSpecial c = false) :
    ¬ q.map f <:+: (instanceOf q).map f := by
  intro hinside
  have hlength : ((instanceOf q).map f).length ≤ (q.map f).length := by
    rw [List.length_map, List.length_map]
    exact length_instanceOf q
  exact hq (not_special_of_instance hf q (hinside.eq_of_length_le hlength))

end Patterns

/-! ## Users -/

section Users
variable [CaseMapping] [CursorText]

/-- A text contains the query up to case. -/
def containsUpToCase (q text : String) : Bool :=
  containsStr (CaseMapping.lower q) (CaseMapping.lower text)

/-- The query is taken literally: where the statements are answered and the listing without it
returns all users from a position on, the listing with it does not fail and returns those whose name
or e-mail contains it up to case, as many as the page holds. -/
def ListsLiterally (q : String) : Prop :=
  ∀ (w : World) isOperator callerOrgId orgId after limit (n : ℕ) all, w.answersAll 2 = true →
    w.tables.users.rows.length ≤ n →
    ((listUsers isOperator callerOrgId ⟨orgId, none, after, n⟩).run w).1 = .ok all →
    ∃ out, ((listUsers isOperator callerOrgId ⟨orgId, some q, after, limit⟩).run w).1 = .ok out ∧
      out.items = (all.items.filter (fun u => containsUpToCase q u.username ||
        containsUpToCase q u.email)).take limit

omit [CursorText] in
/-- The database lowers the characters of a text one by one, and none to or from a special one. -/
structure LowersCharacters (f : Char → Char) : Prop where
  lower : ∀ s, CaseMapping.lower s = String.ofList (s.toList.map f)
  special : ∀ c d, isSpecial d = true → (f c = d ↔ c = d)

variable {f : Char → Char} {t : Tables} {orgId : Option Uuid} {q : String}

omit [CursorText] in
/-- The pattern of a text is lowered character by character. -/
lemma LowersCharacters.pattern (hf : LowersCharacters f) (q : String) :
    (CaseMapping.lower ("%" ++ q ++ "%")).toList = '%' :: (q.toList.map f ++ ['%']) := by
  have hpercent : f '%' = '%' := (hf.special '%' '%' rfl).mpr rfl
  rw [hf.lower, String.toList_ofList, String.toList_append, String.toList_append, List.map_append,
    List.map_append]
  show [f '%'] ++ _ ++ [f '%'] = _
  rw [hpercent]
  rfl

omit [CursorText] in
/-- Without special characters, matching the query is containing it. -/
lemma ilike_eq_contains (hf : LowersCharacters f) (hq : ∀ c ∈ q.toList, isSpecial c = false)
    (text : String) : ilike text ("%" ++ q ++ "%") = containsUpToCase q text := by
  have hmap : ∀ c ∈ q.toList.map f, isSpecial c = false := by
    intro c hc
    obtain ⟨d, hd, rfl⟩ := List.mem_map.mp hc
    rw [special_map hf.special]
    exact hq d hd
  unfold ilike containsUpToCase containsStr
  rw [Bool.eq_iff_iff, hf.pattern, like_contains hmap, decide_eq_true_eq, hf.lower q,
    String.toList_ofList]

omit [CursorText] in
/-- Then the users with the query are selected from those without. -/
lemma usersOf_query (hf : LowersCharacters f) (hq : ∀ c ∈ q.toList, isSpecial c = false) :
    t.usersOf orgId (some q) = (t.usersOf orgId none).filter
      (fun u => containsUpToCase q u.username || containsUpToCase q u.email) := by
  refine ascending_unique Cursor.keyOrder_lt ascending_usersOf (ascending_usersOf.filter _) ?_
  intro u
  rw [List.mem_filter, mem_usersOf, mem_usersOf]
  unfold Tables.lists
  simp only [Option.all_some, Option.all_none, Bool.and_true, ilike_eq_contains hf hq,
    Bool.and_eq_true, and_assoc]

omit [CursorText] in
/-- A page that holds as many rows as there are users holds all of a listing. -/
lemma length_since_usersOf {after : Option Cursor} {q : Option String} :
    (since User.position Cursor.lt (t.usersOf orgId q) after).length ≤ t.users.rows.length := by
  refine (List.length_filter_le _ _).trans ?_
  unfold Tables.usersOf
  rw [List.length_insertionSort]
  exact List.length_filter_le _ _

/-- A text without special characters is searched literally. -/
lemma listsLiterally_of_plain (hf : LowersCharacters f)
    (hq : ∀ c ∈ q.toList, isSpecial c = false) (hnul : hasNul q = false) : ListsLiterally q := by
  intro w isOperator callerOrgId orgId raw limit n all hanswers hn hall
  rw [World.answersAll_succ, World.answersAll_succ, Bool.and_eq_true, Bool.and_eq_true] at hanswers
  cases hdecode : decodeCursor CursorText.decodeUserCursor raw ListUsersError.invalidCursor with
  | error e =>
    unfold listUsers at hall
    dsimp only at hall
    rw [hdecode, Prog.run_bind, Prog.run_ofExcept] at hall
    cases hall
  | ok after =>
    have hfits : (since User.position Cursor.lt (w.tables.usersOf
        (if isOperator then orgId else callerOrgId) none) after).length ≤ n :=
      length_since_usersOf.trans hn
    have hwhole := List.take_of_length_le (Nat.le_succ_of_le hfits)
    rw [run_listUsers rfl hdecode hwhole, hanswers.1, hanswers.2.1, Bool.or_true, Bool.true_and,
      if_pos rfl, List.take_of_length_le hfits] at hall
    cases hall
    have hstorable : (some q).any hasNul = false := hnul
    refine ⟨_, (run_listUsers hstorable hdecode rfl).trans (if_pos ?_), ?_⟩
    · rw [hanswers.1, hanswers.2.1, Bool.or_true, Bool.true_and]
    · rw [usersOf_query hf hq, since_filter, List.take_take, Nat.min_eq_left (Nat.le_succ limit),
        List.filter_map, List.map_take]
      rfl

/-- The only user of a table has an instance of the query as its name. -/
def instanceUser (q : String) : User :=
  ⟨1, String.ofList (instanceOf q.toList), "", "", .human, 0, 0⟩

/-- The tables with one user, under a name that the text matches. -/
def instanceTables (q : String) : Tables where
  __ := Tables.seededTables 0
  users := ⟨[instanceUser q], List.nodup_singleton _⟩

omit [CursorText] in
/-- The one user is listed when it matches. -/
lemma usersOf_instanceTables {q' : Option String}
    (h : (instanceTables q).lists none q' (instanceUser q) = true) :
    (instanceTables q).usersOf none q' = [instanceUser q] := by
  show ([instanceUser q].filter _).insertionSort _ = _
  rw [List.filter_cons_of_pos h]
  rfl

omit [CursorText] in
/-- The page of that table which starts at its beginning. -/
lemma take_usersOf_instanceTables {q' : Option String}
    (h : (instanceTables q).usersOf none q' = [instanceUser q]) :
    (since User.position Cursor.lt ((World.calm (instanceTables q) 0).tables.usersOf
      (if true then none else none) q') none).take 2 = [instanceUser q] := by
  rw [since_none]
  exact congrArg (List.take 2) h

/-- A query that is taken literally does not make the listing fail. -/
lemma storable_of_listsLiterally (h : ListsLiterally q) : hasNul q = false := by
  cases hnul : hasNul q with
  | false => rfl
  | true =>
    have hnone : (instanceTables q).usersOf none none = [instanceUser q] :=
      usersOf_instanceTables rfl
    obtain ⟨out, hout, -⟩ := h (.calm (instanceTables q) 0) true none none none 1 1 _ rfl
      (Nat.le_refl 1) (run_listUsers rfl rfl (take_usersOf_instanceTables hnone))
    have hrefused : (some q).any hasNul = true := hnul
    exact absurd hout (listUsers_of_nul hrefused out)

/-- A text that is searched literally has no special characters. -/
lemma plain_of_listsLiterally (hf : LowersCharacters f) (h : ListsLiterally q) :
    ∀ c ∈ q.toList, isSpecial c = false := by
  by_contra hq
  -- the only user matches the pattern, but its name does not contain the query
  have hall : (instanceTables q).usersOf none none = [instanceUser q] := usersOf_instanceTables rfl
  have hmatches : ilike (instanceUser q).username ("%" ++ q ++ "%") = true := by
    unfold ilike
    rw [hf.pattern, like_percent_cons, hf.lower]
    refine ⟨_, List.suffix_refl _, ?_⟩
    unfold instanceUser
    rw [String.toList_ofList, String.toList_ofList]
    exact like_instance hf.special q.toList
  have hfound : (instanceTables q).usersOf none (some q) = [instanceUser q] := by
    refine usersOf_instanceTables ?_
    unfold Tables.lists
    rw [Option.all_none, Option.all_some, hmatches]
    rfl
  have hname : containsUpToCase q (instanceUser q).username = false := by
    unfold containsUpToCase containsStr instanceUser
    rw [decide_eq_false_iff_not, hf.lower, hf.lower, String.toList_ofList, String.toList_ofList,
      String.toList_ofList]
    exact not_infix_instance hf.special q.toList hq
  have hemail : containsUpToCase q (instanceUser q).email = false := by
    unfold containsUpToCase containsStr instanceUser
    rw [decide_eq_false_iff_not, hf.lower, hf.lower, String.toList_ofList, String.toList_ofList]
    intro hinside
    have hnil : q.toList = [] := by simpa using hinside
    rw [hnil] at hq
    exact hq fun c hc => absurd hc List.not_mem_nil
  have hstorable : (some q).any hasNul = false := storable_of_listsLiterally h
  obtain ⟨out, hout, hitems⟩ := h (.calm (instanceTables q) 0) true none none none 1 1 _ rfl
    (Nat.le_refl 1) (run_listUsers rfl rfl (take_usersOf_instanceTables hall))
  rw [run_listUsers hstorable rfl (take_usersOf_instanceTables hfound)] at hout
  cases hout
  have hdropped : ([instanceUser q].map ((instanceTables q).userItem true none)).filter
      (fun u => containsUpToCase q u.username || containsUpToCase q u.email) = [] :=
    List.filter_cons_of_neg (by simp [Tables.userItem, withMemberships, hname, hemail])
  have hnone := hitems.trans (congrArg (List.take 1) hdropped)
  cases hnone

/-- The query is taken literally exactly when it has no special character and the database can hold
it. -/
theorem listsLiterally_iff (hf : LowersCharacters f) :
    ListsLiterally q ↔ (∀ c ∈ q.toList, isSpecial c = false) ∧ hasNul q = false := by
  constructor
  · intro h
    exact ⟨plain_of_listsLiterally hf h, storable_of_listsLiterally h⟩
  · rintro ⟨hq, hnul⟩
    exact listsLiterally_of_plain hf hq hnul

end Users

section Runs

/-- Lowering of ASCII works on characters. -/
lemma lowersCharacters_ascii : @LowersCharacters asciiPlatform.toCaseMapping Char.toLower := by
  let _ : Platform := asciiPlatform
  refine ⟨fun s => ?_, fun c d hd => ?_⟩
  · show s.map Char.toLower = _
    rw [← String.toList_inj, String.toList_map, String.toList_ofList]
  · have hspecial : d.val.toNat = 37 ∨ d.val.toNat = 95 ∨ d.val.toNat = 92 := by
      simp only [isSpecial, Bool.or_eq_true, decide_eq_true_eq, or_assoc] at hd
      rcases hd with rfl | rfl | rfl <;> decide
    show c.toLower = d ↔ c = d
    unfold Char.toLower
    split
    · rename_i hletter
      have hlow : 65 ≤ c.val.toNat := hletter.1
      have hhigh : c.val.toNat ≤ 90 := hletter.2
      constructor
      · intro h
        have hval : (c.val + 32).toNat = d.val.toNat := congrArg (fun e => e.val.toNat) h
        rw [UInt32.toNat_add] at hval
        have hoffset : UInt32.toNat 32 = 32 := rfl
        omega
      · rintro rfl
        omega
    · exact Iff.rfl

/-- An underscore selects a user without one. -/
theorem underscore_selects :
    ¬ @ListsLiterally asciiPlatform.toCaseMapping asciiPlatform.toCursorText "_" := by
  let _ : Platform := asciiPlatform
  intro h
  exact absurd (plain_of_listsLiterally lowersCharacters_ascii h '_' (by decide)) (by decide)

/-- A query of letters is taken literally. -/
theorem listsLiterally_iff_letters :
    @ListsLiterally asciiPlatform.toCaseMapping asciiPlatform.toCursorText "Ann" ↔
      (∀ c ∈ "Ann".toList, isSpecial c = false) ∧ hasNul "Ann" = false :=
  @listsLiterally_iff asciiPlatform.toCaseMapping asciiPlatform.toCursorText Char.toLower "Ann"
    lowersCharacters_ascii

end Runs
end Egras
