import Mathlib.Data.List.Sort
import Mathlib.Tactic.Lemma

/-!
# Keyset pagination

A server hands out pages (`Page`), each with the cursor of the next one if there is one, and a
client follows the cursors. `Yields` says what the client ends up with: whichever of its possible
pages the server hands out, the client comes to an end, and the pages together are a given list. The
server need not be a function, so that it may answer each request in another state.

A keyset server keeps its rows in the strict order of a key and serves those past a position
(`since`), one more than a page holds so as to see whether there is a next page. It matters which
row the cursor is taken from. With the last row of the page nothing is lost (`yields_of_last`), unless
a page holds no row at all (`yields_of_empty`). With the row that was only fetched to look ahead
the client gets everything exactly when it all fits a page (`yields_extra_iff`).
-/

namespace Egras.Lib

/-- Some items and the cursor of the next page. -/
structure Page (α γ : Type) where
  items : List α
  next : Option γ
deriving DecidableEq

namespace Page
variable {α β γ δ : Type}

/-- A page with its items and its cursor put in another form. -/
def map (f : α → β) (g : γ → δ) (p : Page α γ) : Page β δ := ⟨p.items.map f, p.next.map g⟩

end Page

/-- A client that starts at a cursor and follows the cursors comes to an end with these items. -/
inductive Yields {α γ : Type} (serves : Option γ → Page α γ → Prop) : Option γ → List α → Prop
  | intro {after all} (rest : Page α γ → List α) (answered : ∃ page, serves after page)
      (split : ∀ page, serves after page → all = page.items ++ rest page)
      (ends : ∀ page, serves after page → page.next = none → rest page = [])
      (goes : ∀ page c, serves after page → page.next = some c → Yields serves (some c) (rest page)) :
      Yields serves after all

section Yields
variable {α γ : Type} {serves : Option γ → Page α γ → Prop} {after : Option γ} {xs ys : List α}

/-- A client ends up with one list only. -/
lemma Yields.unique (h : Yields serves after xs) (k : Yields serves after ys) : xs = ys := by
  induction h generalizing ys with
  | @intro after xs rest answered split ends goes ih =>
    cases k with
    | intro rest' answered' split' ends' goes' =>
      obtain ⟨page, hpage⟩ := answered
      rw [split page hpage, split' page hpage]
      cases hnext : page.next with
      | none => rw [ends page hpage hnext, ends' page hpage hnext]
      | some c => rw [ih page c hpage hnext (goes' page c hpage hnext)]

/-- A server with one page to hand out that is the last one. -/
lemma Yields.last {page : Page α γ} (hserves : ∀ p, serves after p ↔ p = page)
    (hnext : page.next = none) : Yields serves after page.items := by
  refine .intro (fun _ => []) ⟨page, (hserves page).mpr rfl⟩ ?_ (fun _ _ _ => rfl) ?_
  · intro p hp
    rw [(hserves p).mp hp, List.append_nil]
  · intro p c hp hc
    rw [(hserves p).mp hp, hnext] at hc
    cases hc

/-- A server with one page to hand out and more to come. -/
lemma Yields.more {page : Page α γ} {c : γ} (hserves : ∀ p, serves after p ↔ p = page)
    (hnext : page.next = some c) (hrest : Yields serves (some c) xs) :
    Yields serves after (page.items ++ xs) := by
  refine .intro (fun _ => xs) ⟨page, (hserves page).mpr rfl⟩ ?_ ?_ ?_
  · intro p hp
    rw [(hserves p).mp hp]
  · intro p hp hc
    rw [(hserves p).mp hp, hnext] at hc
    cases hc
  · intro p d hp hd
    rw [(hserves p).mp hp, hnext] at hd
    cases hd
    exact hrest

end Yields

/-- A strict order in which any two keys can be compared. -/
structure KeyOrder {κ : Type} (lt : κ → κ → Bool) : Prop where
  asymm : ∀ c d, lt c d = true → lt d c = false
  trans : ∀ c d e, lt c d = true → lt d e = true → lt c e = true
  total : ∀ c d, lt c d = true ∨ c = d ∨ lt d c = true

/-- No key is before itself. -/
lemma KeyOrder.irrefl {κ : Type} {lt : κ → κ → Bool} (order : KeyOrder lt) (k : κ) :
    lt k k = false := by
  cases hk : lt k k with
  | false => rfl
  | true => exact hk.symm.trans (order.asymm _ _ hk)

section Keyset
variable {ρ κ : Type} (key : ρ → κ) (lt : κ → κ → Bool)

/-- The rows past a position. -/
def since (rows : List ρ) (after : Option κ) : List ρ :=
  rows.filter (fun r => after.all (fun c => lt c (key r)))

/-- Cut what was fetched to a page, with the cursor taken from the last row of the page. -/
def cutAtLast (limit : ℕ) (found : List ρ) : Page ρ κ :=
  if limit < found.length then ⟨found.take limit, (found.take limit).getLast?.map key⟩
  else ⟨found, none⟩

/-- Cut what was fetched to a page, with the cursor taken from the row that is cut off. -/
def cutAtExtra (limit : ℕ) (found : List ρ) : Page ρ κ :=
  if limit < found.length then ⟨found.dropLast, found.getLast?.map key⟩ else ⟨found, none⟩

/-- Each row comes strictly before those that follow it. -/
def Ascending (rows : List ρ) : Prop := rows.Pairwise (fun a b => lt (key a) (key b) = true)

variable {key lt} {rows front back : List ρ} {x : ρ} {limit : ℕ}

/-- Without a cursor every row comes. -/
@[simp] lemma since_none : since key lt rows none = rows := List.filter_eq_self.mpr fun _ _ => rfl

/-- The rows past a position that pass a filter. -/
lemma since_filter (p : ρ → Bool) (after : Option κ) :
    since key lt (rows.filter p) after = (since key lt rows after).filter p := by
  unfold since
  rw [List.filter_filter, List.filter_filter]
  congr 1
  funext r
  exact Bool.and_comm _ _

/-- The rows past a row are those that follow it. -/
lemma since_of_append (order : KeyOrder lt)
    (h : Ascending key lt (front ++ x :: back)) :
    since key lt (front ++ x :: back) (some (key x)) = back := by
  obtain ⟨-, hback, hcross⟩ := List.pairwise_append.mp h
  obtain ⟨hx, -⟩ := List.pairwise_cons.mp hback
  have hfront : front.filter (fun r => lt (key x) (key r)) = [] := by
    refine List.filter_eq_nil_iff.mpr fun r hr => ?_
    rw [order.asymm _ _ (hcross r hr x List.mem_cons_self)]
    decide
  have hafter : back.filter (fun r => lt (key x) (key r)) = back :=
    List.filter_eq_self.mpr fun r hr => hx r hr
  show List.filter (fun r => lt (key x) (key r)) _ = back
  rw [List.filter_append, hfront, List.filter_cons, order.irrefl, hafter]
  rfl

/-- The row at a place splits the rows. -/
lemma eq_take_append (h : limit < rows.length) :
    rows = rows.take limit ++ rows[limit] :: rows.drop (limit + 1) := by
  rw [← List.drop_eq_getElem_cons h, List.take_append_drop]

/-- Rows in strict order are determined by which rows they are. -/
lemma ascending_unique (order : KeyOrder lt) {rows' : List ρ} (h : Ascending key lt rows)
    (h' : Ascending key lt rows') (hmem : ∀ r, r ∈ rows ↔ r ∈ rows') : rows = rows' := by
  have hnodup : ∀ {rows : List ρ}, Ascending key lt rows → rows.Nodup := by
    intro rows hrows
    refine hrows.imp fun {a b} hab heq => ?_
    rw [heq, order.irrefl] at hab
    cases hab
  have hperm := (List.perm_ext_iff_of_nodup (hnodup h) (hnodup h')).mpr hmem
  refine List.Perm.eq_of_pairwise ?_ h h' hperm
  intro a b _ _ hab hba
  rw [order.asymm _ _ hab] at hba
  cases hba

/-- A client gets the rows with a property, each once and in the order of their keys. -/
def Complete {α γ : Type} (serves : Option γ → Page α γ → Prop) (key : ρ → κ)
    (lt : κ → κ → Bool) (P : ρ → Prop) (f : ρ → α) : Prop :=
  ∃ rows, Ascending key lt rows ∧ (∀ r, r ∈ rows ↔ P r) ∧ Yields serves none (rows.map f)

/-- A listing is complete when its pages yield the rows. -/
lemma complete_iff {α γ : Type} {serves : Option γ → Page α γ → Prop} {P : ρ → Prop} {f : ρ → α}
    (order : KeyOrder lt) (hrows : Ascending key lt rows) (hmem : ∀ r, r ∈ rows ↔ P r) :
    Complete serves key lt P f ↔ Yields serves none (rows.map f) := by
  constructor
  · rintro ⟨rows', hrows', hmem', hyields⟩
    rw [ascending_unique order hrows hrows' fun r => (hmem r).trans (hmem' r).symm]
    exact hyields
  · intro hyields
    exact ⟨rows, hrows, hmem, hyields⟩

section Serve
variable {α γ : Type} {serves : Option γ → Page α γ → Prop} {f : ρ → α} {g : κ → γ}

/-- A server that cuts at the last row of a page loses nothing from a position on. -/
lemma yields_suffix (hpos : 0 < limit) (order : KeyOrder lt)
    (hrows : Ascending key lt rows)
    (hserves : ∀ after page, serves (after.map g) page ↔
      page = (cutAtLast key limit ((since key lt rows after).take (limit + 1))).map f g)
    (after : Option κ) (front back : List ρ) (hsuffix : rows = front ++ back)
    (hback : since key lt rows after = back) : Yields serves (after.map g) (back.map f) := by
  -- on the number of rows that are left to come
  induction hn : back.length using Nat.strong_induction_on generalizing front back after with
  | _ n ih =>
    have hpage : ∀ page, serves (after.map g) page ↔
        page = (cutAtLast key limit (back.take (limit + 1))).map f g := by
      intro page
      rw [hserves, hback]
    by_cases hmore : limit < back.length
    · -- the cursor is the key of the last row of the page
      have hlast : limit - 1 < back.length := by omega
      have htake : (back.take (limit + 1)).take limit = back.take limit := by
        rw [List.take_take, Nat.min_eq_left (Nat.le_succ limit)]
      have hgetLast : (back.take limit).getLast? = some back[limit - 1] := by
        rw [List.getLast?_eq_getElem?, List.length_take, Nat.min_eq_left hmore.le,
          List.getElem?_take_of_lt (by omega), List.getElem?_eq_getElem hlast]
      have hcut : cutAtLast key limit (back.take (limit + 1)) =
          ⟨back.take limit, some (key back[limit - 1])⟩ := by
        unfold cutAtLast
        rw [if_pos (by rw [List.length_take]; omega), htake, hgetLast]
        rfl
      have hsplit := eq_take_append hlast
      rw [Nat.sub_add_cancel hpos] at hsplit
      have hwhole : rows = (front ++ back.take (limit - 1)) ++ back[limit - 1] :: back.drop limit := by
        rw [List.append_assoc, ← hsplit]
        exact hsuffix
      have hrest : since key lt rows (some (key back[limit - 1])) = back.drop limit := by
        rw [hwhole] at hrows ⊢
        exact since_of_append order hrows
      have hdrop : rows = (front ++ back.take limit) ++ back.drop limit := by
        rw [List.append_assoc, List.take_append_drop]
        exact hsuffix
      have hlen : (back.drop limit).length < n := by
        rw [List.length_drop]
        omega
      have htail := ih _ hlen _ _ _ hdrop hrest rfl
      have hjoin : back.map f = (back.take limit).map f ++ (back.drop limit).map f := by
        rw [← List.map_append, List.take_append_drop]
      rw [hjoin]
      rw [hcut] at hpage
      exact Yields.more hpage rfl htail
    · have hall : back.take (limit + 1) = back := List.take_of_length_le (by omega)
      have hcut : cutAtLast key limit (back.take (limit + 1)) = ⟨back, none⟩ := by
        unfold cutAtLast
        rw [hall, if_neg hmore]
      rw [hcut] at hpage
      exact Yields.last hpage rfl

/-- A server that cuts at the last row of a page loses nothing. -/
theorem yields_of_last (hpos : 0 < limit) (order : KeyOrder lt)
    (hrows : Ascending key lt rows)
    (hserves : ∀ after page, serves (after.map g) page ↔
      page = (cutAtLast key limit ((since key lt rows after).take (limit + 1))).map f g) :
    Yields serves none (rows.map f) :=
  yields_suffix hpos order hrows hserves none [] rows rfl since_none

/-- A server whose pages hold no row stops at once. -/
theorem yields_of_empty
    (hserves : ∀ after page, serves (after.map g) page ↔
      page = (cutAtLast key 0 ((since key lt rows after).take 1)).map f g) :
    Yields serves none [] := by
  have hcut : cutAtLast key 0 (rows.take 1) = ⟨[], none⟩ := by
    unfold cutAtLast
    cases rows <;> rfl
  have hpage : ∀ page, serves none page ↔ page = ⟨[], none⟩ := by
    intro page
    have h := hserves none page
    rw [since_none, hcut] at h
    exact h
  exact Yields.last hpage rfl

section Extra
variable (hserves : ∀ after page, serves (after.map g) page ↔
  page = (cutAtExtra key limit ((since key lt rows after).take (limit + 1))).map f g)
include hserves

/-- A server that cuts at the extra row gives no more than there is past a position, and loses one
row at the end of each page but the last. -/
lemma length_le_of_extra (order : KeyOrder lt)
    (hrows : Ascending key lt rows) {position : Option γ} {all : List α}
    (h : Yields serves position all) :
    ∀ (after : Option κ) (front back : List ρ), position = after.map g → rows = front ++ back →
      since key lt rows after = back → all.length ≤ back.length ∧
        (limit < back.length → all.length < back.length) := by
  induction h with
  | @intro position all rest answered split ends goes ih =>
    intro after front back hposition hsuffix hback
    obtain ⟨page, hpage⟩ := answered
    have hform := hpage
    rw [hposition, hserves, hback] at hform
    by_cases hmore : limit < back.length
    · -- the cursor is the key of the extra row, which the next page therefore skips
      have htake : back.take (limit + 1) = back.take limit ++ [back[limit]] :=
        List.take_succ_eq_append_getElem hmore
      have hcut : cutAtExtra key limit (back.take (limit + 1)) =
          ⟨back.take limit, some (key back[limit])⟩ := by
        unfold cutAtExtra
        rw [if_pos (by rw [List.length_take]; omega), htake, List.dropLast_concat,
          List.getLast?_concat]
        rfl
      rw [hcut] at hform
      have hnext : page.next = some (g (key back[limit])) := by rw [hform]; rfl
      have hsplit := eq_take_append hmore
      have hwhole : rows = (front ++ back.take limit) ++ back[limit] :: back.drop (limit + 1) := by
        rw [List.append_assoc, ← hsplit]
        exact hsuffix
      have hrest : since key lt rows (some (key back[limit])) = back.drop (limit + 1) := by
        rw [hwhole] at hrows ⊢
        exact since_of_append order hrows
      have hdrop : rows = (front ++ back.take (limit + 1)) ++ back.drop (limit + 1) := by
        rw [List.append_assoc, List.take_append_drop]
        exact hsuffix
      have htail := (ih page _ hpage hnext (some (key back[limit])) _ _ rfl hdrop hrest).1
      have hitems : page.items.length = limit := by
        rw [hform]
        simp only [Page.map, List.length_map, List.length_take]
        omega
      have hall := congrArg List.length (split page hpage)
      rw [List.length_append, hitems] at hall
      rw [List.length_drop] at htail
      omega
    · have hcut : cutAtExtra key limit (back.take (limit + 1)) = ⟨back, none⟩ := by
        unfold cutAtExtra
        rw [List.take_of_length_le (by omega), if_neg hmore]
      rw [hcut] at hform
      have hnext : page.next = none := by rw [hform]; rfl
      have hall := congrArg List.length (split page hpage)
      rw [ends page hpage hnext, List.append_nil, hform] at hall
      simp only [Page.map, List.length_map] at hall
      exact ⟨hall.le, fun h => absurd h hmore⟩

/-- A server that cuts at the extra row loses nothing exactly when all fits a page. -/
theorem yields_extra_iff (order : KeyOrder lt)
    (hrows : Ascending key lt rows) :
    Yields serves none (rows.map f) ↔ rows.length ≤ limit := by
  constructor
  · intro h
    by_contra hmore
    have hless := (length_le_of_extra hserves order hrows h none [] rows rfl rfl
      since_none).2 (by omega)
    rw [List.length_map] at hless
    omega
  · intro hfits
    have hcut : cutAtExtra key limit (rows.take (limit + 1)) = ⟨rows, none⟩ := by
      unfold cutAtExtra
      rw [List.take_of_length_le (by omega), if_neg (by omega)]
    have hpage : ∀ page, serves none page ↔ page = ⟨rows.map f, none⟩ := by
      intro page
      have h := hserves none page
      rw [since_none, hcut] at h
      exact h
    exact Yields.last hpage rfl

end Extra
end Serve

/-! ### Rows in the order of a key -/

section Sorting
variable {le : ρ → ρ → Prop} {p : ρ → Bool}
  (hle : ∀ a b, le a b ↔ lt (key a) (key b) = true ∨ key a = key b)
include hle

/-- Two keys are in order one way or the other. -/
lemma KeyOrder.le_total (order : KeyOrder lt) : Std.Total le := by
  refine ⟨fun a b => ?_⟩
  rw [hle, hle]
  rcases order.total (key a) (key b) with hab | hab | hab
  · exact Or.inl (Or.inl hab)
  · exact Or.inl (Or.inr hab)
  · exact Or.inr (Or.inl hab)

/-- The order of keys is transitive. -/
lemma KeyOrder.le_trans (order : KeyOrder lt) : IsTrans ρ le := by
  refine ⟨fun a b c hab hbc => ?_⟩
  rw [hle] at hab hbc ⊢
  rcases hab with hab | hab
  · rcases hbc with hbc | hbc
    · exact Or.inl (order.trans _ _ _ hab hbc)
    · exact Or.inl (hbc ▸ hab)
  · rw [hab]
    exact hbc

/-- Keys that are in order both ways are equal. -/
lemma KeyOrder.le_antisymm (order : KeyOrder lt) {a b : ρ} (hab : le a b) (hba : le b a) :
    key a = key b := by
  rw [hle] at hab hba
  rcases hab with hab | hab
  · rcases hba with hba | hba
    · exact absurd ((order.asymm _ _ hab).symm.trans hba) (by decide)
    · exact hba.symm
  · exact hab

variable [DecidableRel le]

/-- Rows with different keys are strictly ascending once they are sorted. -/
lemma KeyOrder.ascending (order : KeyOrder lt) (hnodup : rows.Nodup)
    (hkey : ∀ a ∈ rows, ∀ b ∈ rows, key a = key b → a = b) :
    Ascending key lt (rows.insertionSort le) := by
  have htotal := order.le_total hle
  have htrans := order.le_trans hle
  have hne : (rows.insertionSort le).Pairwise (· ≠ ·) :=
    (List.perm_insertionSort le rows).nodup_iff.mpr hnodup
  refine ((List.pairwise_insertionSort le rows).and hne).imp_of_mem ?_
  rintro a b ha hb ⟨hab, hdiff⟩
  rcases (hle a b).mp hab with hlt | heq
  · exact hlt
  · rw [List.mem_insertionSort] at ha hb
    exact absurd (hkey a ha b hb heq) hdiff

/-- Selecting the rows past a position before sorting gives the sorted rows past it. -/
lemma KeyOrder.insertionSort_past (order : KeyOrder lt)
    (hkey : ∀ a ∈ rows, ∀ b ∈ rows, key a = key b → a = b) (after : Option κ) :
    (rows.filter (fun r => after.all (fun c => lt c (key r)))).insertionSort le =
      since key lt (rows.insertionSort le) after := by
  have htotal := order.le_total hle
  have htrans := order.le_trans hle
  have hperm : ((rows.filter (fun r => after.all (fun c => lt c (key r)))).insertionSort le).Perm
      (since key lt (rows.insertionSort le) after) :=
    (List.perm_insertionSort le _).trans ((List.perm_insertionSort le rows).filter _).symm
  refine List.Perm.eq_of_pairwise ?_ (List.pairwise_insertionSort le _)
    ((List.pairwise_insertionSort le _).filter _) hperm
  intro a b ha hb hab hba
  rw [List.mem_insertionSort] at ha
  have hb' := (List.mem_insertionSort le).mp (List.mem_filter.mp hb).1
  exact hkey a (List.mem_filter.mp ha).1 b hb' (order.le_antisymm hle hab hba)

/-- The same of rows that also have to pass a filter. -/
lemma KeyOrder.insertionSort_since (order : KeyOrder lt)
    (hkey : ∀ a ∈ rows, ∀ b ∈ rows, key a = key b → a = b) (after : Option κ) :
    (rows.filter (fun r => p r && after.all (fun c => lt c (key r)))).insertionSort le =
      since key lt ((rows.filter p).insertionSort le) after := by
  have hkey' : ∀ a ∈ rows.filter p, ∀ b ∈ rows.filter p, key a = key b → a = b :=
    fun a ha b hb => hkey a (List.mem_filter.mp ha).1 b (List.mem_filter.mp hb).1
  rw [← order.insertionSort_past hle hkey' after, List.filter_filter]
  congr 2
  funext r
  exact Bool.and_comm _ _

end Sorting
end Keyset
end Egras.Lib
