import Mathlib.Data.List.Forall2
import XmlShape.Proofs.Decimal.Layout
import XmlShape.Proofs.Text.Words
import XmlShape.Report.RelationTable

/-!
# Tables without loss

The texts of a row are the words of its line, however long they are. A title counts the rows of its
table, and no two titles begin alike, so the tables are told apart and each ends where it should.
-/

namespace XmlShape
namespace Report

open Schema Text

/-!
# Rows
-/

theorem append_cons_inj {α : Type} {c : α} {front front' back back' : List α} (hfront : c ∉ front)
    (hfront' : c ∉ front') (h : front ++ c :: back = front' ++ c :: back') :
    front = front' ∧ back = back' := by
  induction front generalizing front' with
  | nil =>
      cases front' with
      | nil =>
          exact ⟨rfl, (List.cons.inj h).2⟩
      | cons other front' =>
          exact absurd ((List.cons.inj h).1 ▸ List.mem_cons_self) hfront'
  | cons first front ih =>
      cases front' with
      | nil =>
          exact absurd ((List.cons.inj h).1 ▸ List.mem_cons_self) hfront
      | cons other front' =>
          obtain ⟨hfirst, hrest⟩ := List.cons.inj h
          obtain ⟨rfl, hback⟩ := ih (List.not_mem_of_not_mem_cons hfront)
            (List.not_mem_of_not_mem_cons hfront') hrest
          exact ⟨by rw [hfirst], hback⟩

structure IsRow (columns : List Column) (texts : List String) : Prop where
  length : columns.length = texts.length
  words : ∀ text ∈ texts, IsWord text.toList

def rowBody (columns : List Column) (texts : List String) : List Char :=
  [' '].intercalate ((List.zipWith Column.cell columns texts).map String.toList)

theorem toList_row (columns : List Column) (texts : List String) :
    (row columns texts).toList = "  ".toList ++ (rowBody columns texts ++ ['\n']) := by
  rw [row, String.toList_append, String.toList_append, String.toList_intercalate,
    List.append_assoc]
  rfl

theorem exists_toList_cell (column : Column) (text : String) :
    ∃ before after, (column.cell text).toList =
      List.replicate before ' ' ++ (text.toList ++ List.replicate after ' ') := by
  unfold Column.cell
  split
  · exact ⟨0, _, toList_padRight column.width text⟩
  · refine ⟨column.width - text.length, 0, ?_⟩
    rw [toList_padLeft, List.replicate_zero, List.append_nil]

theorem words_cell {column : Column} {text : String} (h : IsWord text.toList) :
    words (column.cell text).toList = [text.toList] := by
  obtain ⟨before, after, hcell⟩ := exists_toList_cell column text
  rw [hcell, words_spaces, words_word_end h]

theorem words_cell_space {column : Column} {text : String} (h : IsWord text.toList)
    (cs : List Char) :
    words ((column.cell text).toList ++ ' ' :: cs) = text.toList :: words cs := by
  obtain ⟨before, after, hcell⟩ := exists_toList_cell column text
  rw [hcell, List.append_assoc, words_spaces, words_word_spaces h]

theorem line_not_mem_cell {column : Column} {text : String} (h : IsWord text.toList) :
    '\n' ∉ (column.cell text).toList := by
  obtain ⟨before, after, hcell⟩ := exists_toList_cell column text
  simp [hcell, h.unbroken.2]

theorem rowBody_singleton (column : Column) (text : String) :
    rowBody [column] [text] = (column.cell text).toList :=
  List.intercalate_singleton

theorem rowBody_cons_cons (column next : Column) (columns : List Column) (text other : String)
    (texts : List String) :
    rowBody (column :: next :: columns) (text :: other :: texts) =
      (column.cell text).toList ++ ' ' :: rowBody (next :: columns) (other :: texts) := by
  simp only [rowBody, List.zipWith_cons_cons, List.map_cons, List.intercalate_cons_cons,
    List.append_assoc, List.singleton_append]

theorem IsRow.tail {column : Column} {columns : List Column} {text : String} {texts : List String}
    (h : IsRow (column :: columns) (text :: texts)) : IsRow columns texts :=
  ⟨Nat.succ.inj h.length, (List.forall_mem_cons.mp h.words).2⟩

theorem words_rowBody {columns : List Column} {texts : List String} (h : IsRow columns texts) :
    words (rowBody columns texts) = texts.map String.toList ∧ '\n' ∉ rowBody columns texts := by
  induction columns generalizing texts with
  | nil =>
      rw [List.length_eq_zero_iff.mp h.length.symm]
      exact ⟨rfl, List.not_mem_nil⟩
  | cons column columns ih =>
      cases texts with
      | nil =>
          cases h.length
      | cons text texts =>
          have htext : IsWord text.toList := h.words text List.mem_cons_self
          have hline : '\n' ∉ (column.cell text).toList := line_not_mem_cell htext
          obtain ⟨hwords, hrest⟩ := ih h.tail
          cases columns with
          | nil =>
              rw [List.length_eq_zero_iff.mp h.tail.length.symm, rowBody_singleton]
              exact ⟨words_cell htext, hline⟩
          | cons next columns =>
              cases texts with
              | nil =>
                  cases h.tail.length
              | cons other texts =>
                  rw [rowBody_cons_cons, words_cell_space htext, hwords]
                  refine ⟨rfl, ?_⟩
                  simp [hline, hrest]

theorem row_inj {columns : List Column} {texts texts' : List String} {rest rest' : List Char}
    (htexts : IsRow columns texts) (htexts' : IsRow columns texts')
    (h : (row columns texts).toList ++ rest = (row columns texts').toList ++ rest') :
    texts = texts' ∧ rest = rest' := by
  obtain ⟨hwords, hline⟩ := words_rowBody htexts
  obtain ⟨hwords', hline'⟩ := words_rowBody htexts'
  simp only [toList_row, List.append_assoc, List.singleton_append] at h
  obtain ⟨hbody, hrest⟩ := append_cons_inj hline hline' (List.append_cancel_left h)
  rw [hbody, hwords'] at hwords
  exact ⟨List.map_injective_iff.mpr (fun _ _ => String.toList_injective) hwords.symm, hrest⟩

theorem rows_inj {columns : List Column} {rows rows' : List (List String)} {rest rest' : List Char}
    (hrows : ∀ texts ∈ rows, IsRow columns texts) (hrows' : ∀ texts ∈ rows', IsRow columns texts)
    (hlength : rows.length = rows'.length)
    (h : (rows.flatMap fun texts => (row columns texts).toList) ++ rest =
      (rows'.flatMap fun texts => (row columns texts).toList) ++ rest') :
    rows = rows' ∧ rest = rest' := by
  induction rows generalizing rows' with
  | nil =>
      rw [List.length_eq_zero_iff.mp hlength.symm] at h ⊢
      exact ⟨rfl, h⟩
  | cons texts rows ih =>
      cases rows' with
      | nil =>
          cases hlength
      | cons texts' rows' =>
          obtain ⟨htexts, hrows⟩ := List.forall_mem_cons.mp hrows
          obtain ⟨htexts', hrows'⟩ := List.forall_mem_cons.mp hrows'
          simp only [List.flatMap_cons, List.append_assoc] at h
          obtain ⟨hfirst, hothers⟩ := row_inj htexts htexts' h
          obtain ⟨hrows, hrest⟩ := ih hrows hrows' (Nat.succ.inj hlength) hothers
          exact ⟨by rw [hfirst, hrows], hrest⟩

/-!
# Tables
-/

theorem toList_table (title : String) (columns : List Column) (rows : List (List String)) :
    (table title columns rows).toList =
      title.toList ++ (" (".toList ++ ((toString rows.length).toList ++ ')' :: (":\n".toList ++
        ((row columns (columns.map (·.title))).toList ++
          rows.flatMap fun texts => (row columns texts).toList)))) := by
  have hclose : "):\n".toList = ')' :: ":\n".toList := rfl
  simp only [table, String.toList_append, String.toList_join, List.flatMap_map, hclose,
    List.append_assoc, List.cons_append]

theorem table_inj {title : String} {columns : List Column} {rows rows' : List (List String)}
    {rest rest' : List Char} (hrows : ∀ texts ∈ rows, IsRow columns texts)
    (hrows' : ∀ texts ∈ rows', IsRow columns texts)
    (h : (table title columns rows).toList ++ rest = (table title columns rows').toList ++ rest') :
    rows = rows' ∧ rest = rest' := by
  have hbracket : ∀ n : Nat, ')' ∉ (toString n).toList := by
    intro n hmem
    exact absurd (Decimal.isDigit_of_mem_toString hmem) (by decide)
  simp only [toList_table, List.append_assoc, List.cons_append] at h
  have hcounted := List.append_cancel_left (List.append_cancel_left h)
  obtain ⟨hcount, hbody⟩ := append_cons_inj (hbracket _) (hbracket _) hcounted
  have hlength : rows.length = rows'.length := Decimal.eq_of_toString_eq hcount
  exact rows_inj hrows hrows' hlength
    (List.append_cancel_left (List.append_cancel_left hbody))

/-- A table with its ending; nothing if there are no rows. -/
def listed (title : String) (columns : List Column) (ending : String)
    (rows : List (List String)) : String :=
  if rows.isEmpty then "" else table title columns rows ++ ending

theorem listed_nil (title : String) (columns : List Column) (ending : String) :
    listed title columns ending [] = "" :=
  rfl

theorem listed_cons (title : String) (columns : List Column) (ending : String)
    (texts : List String) (rows : List (List String)) :
    listed title columns ending (texts :: rows) =
      table title columns (texts :: rows) ++ ending :=
  rfl

theorem head?_listed_cons {title : String} {c : Char} (htitle : title.toList.head? = some c)
    (columns : List Column) (ending : String) (texts : List String) (rows : List (List String))
    (rest : List Char) :
    ((listed title columns ending (texts :: rows)).toList ++ rest).head? = some c := by
  rw [listed_cons, String.toList_append, toList_table, List.append_assoc, List.append_assoc,
    List.head?_append, htitle, Option.some_or]

theorem head?_listed {title : String} {c : Char} (htitle : title.toList.head? = some c)
    {columns : List Column} {ending : String} {rows : List (List String)} {rest : List Char}
    {other : Char} (hne : other ≠ c) (hrest : rest.head? ≠ some other) :
    ((listed title columns ending rows).toList ++ rest).head? ≠ some other := by
  cases rows with
  | nil =>
      exact hrest
  | cons texts rows =>
      rw [head?_listed_cons htitle]
      intro h
      exact hne (Option.some.inj h).symm

theorem listed_inj {title : String} {c : Char} (htitle : title.toList.head? = some c)
    {columns : List Column} {ending : String} {rows rows' : List (List String)}
    {rest rest' : List Char} (hrows : ∀ texts ∈ rows, IsRow columns texts)
    (hrows' : ∀ texts ∈ rows', IsRow columns texts) (hrest : rest.head? ≠ some c)
    (hrest' : rest'.head? ≠ some c)
    (h : (listed title columns ending rows).toList ++ rest =
      (listed title columns ending rows').toList ++ rest') :
    rows = rows' ∧ rest = rest' := by
  have hbegin := head?_listed_cons htitle columns ending
  cases rows with
  | nil =>
      cases rows' with
      | nil =>
          exact ⟨rfl, h⟩
      | cons texts' rows' =>
          rw [listed_nil, String.toList_empty, List.nil_append] at h
          exact absurd (h ▸ hbegin texts' rows' rest') hrest
  | cons texts rows =>
      cases rows' with
      | nil =>
          rw [listed_nil, String.toList_empty, List.nil_append] at h
          exact absurd (h ▸ hbegin texts rows rest) hrest'
      | cons texts' rows' =>
          simp only [listed_cons, String.toList_append, List.append_assoc] at h
          obtain ⟨hrows, hback⟩ := table_inj hrows hrows' h
          exact ⟨hrows, List.append_cancel_left hback⟩

/-!
# Relations
-/

def nothingText (r : Relations) : String :=
  if r.isEmpty then "No relationships detected\n" else ""

theorem relationTable_eq (r : Relations) :
    (relationTable r).toList =
      (listed "One-to-many" oneToManyColumns "\n" (r.oneToMany.map oneToManyRow)).toList ++
      ((listed "Many-to-many" manyToManyColumns "\n" (r.manyToMany.map manyToManyRow)).toList ++
      ((listed "Parent-child" parentChildColumns "" (r.parentChild.map parentChildRow)).toList ++
      (nothingText r).toList)) := by
  simp only [relationTable, listed, nothingText, List.isEmpty_map, String.append_empty,
    String.toList_append, List.append_assoc]

structure NamedByWords (r : Relations) : Prop where
  oneToMany : ∀ relation ∈ r.oneToMany,
    IsWord relation.parent.toList ∧ IsWord relation.child.toList
  manyToMany : ∀ relation ∈ r.manyToMany, IsWord relation.first.toList ∧
    IsWord relation.second.toList ∧ IsWord relation.linking.toList
  parentChild : ∀ relation ∈ r.parentChild,
    IsWord relation.parent.toList ∧ IsWord relation.child.toList

/-- The relations have the same rows, apart from how sure they are. -/
structure SameRelations (r r' : Relations) : Prop where
  oneToMany : r.oneToMany.map (fun x => (x.parent, x.child, x.cardinality)) =
    r'.oneToMany.map (fun x => (x.parent, x.child, x.cardinality))
  manyToMany : r.manyToMany.map (fun x => (x.first, x.second, x.linking)) =
    r'.manyToMany.map (fun x => (x.first, x.second, x.linking))
  parentChild : r.parentChild.map (fun x => (x.parent, x.child, x.depth)) =
    r'.parentChild.map (fun x => (x.parent, x.child, x.depth))

theorem isRow_oneToManyRow {relation : OneToMany}
    (h : IsWord relation.parent.toList ∧ IsWord relation.child.toList) :
    IsRow oneToManyColumns (oneToManyRow relation) := by
  constructor
  · rfl
  · simp only [oneToManyRow, List.forall_mem_cons]
    exact ⟨h.1, h.2, Decimal.isWord_toString _, Decimal.isWord_fixed 2 _, List.forall_mem_nil _⟩

theorem isRow_manyToManyRow {relation : ManyToMany}
    (h : IsWord relation.first.toList ∧ IsWord relation.second.toList ∧
      IsWord relation.linking.toList) :
    IsRow manyToManyColumns (manyToManyRow relation) := by
  constructor
  · rfl
  · simp only [manyToManyRow, List.forall_mem_cons]
    exact ⟨h.1, h.2.1, h.2.2, Decimal.isWord_fixed 2 _, List.forall_mem_nil _⟩

theorem isRow_parentChildRow {relation : ParentChild}
    (h : IsWord relation.parent.toList ∧ IsWord relation.child.toList) :
    IsRow parentChildColumns (parentChildRow relation) := by
  constructor
  · rfl
  · simp only [parentChildRow, List.forall_mem_cons]
    exact ⟨h.1, h.2, Decimal.isWord_toString _, List.forall_mem_nil _⟩

theorem map_eq_of_map_eq {α β γ : Type} {f : α → β} {g : α → γ} {xs ys : List α}
    (hfg : ∀ x y, f x = f y → g x = g y) (h : xs.map f = ys.map f) : xs.map g = ys.map g := by
  rw [← List.forall₂_eq_eq_eq, List.forall₂_map_left_iff, List.forall₂_map_right_iff] at h ⊢
  exact h.imp hfg

theorem of_oneToManyRow_eq (x y : OneToMany) (h : oneToManyRow x = oneToManyRow y) :
    (x.parent, x.child, x.cardinality) = (y.parent, y.child, y.cardinality) := by
  simp only [oneToManyRow, List.cons.injEq] at h
  obtain ⟨hparent, hchild, hcardinality, _⟩ := h
  rw [hparent, hchild, Decimal.eq_of_toString_eq (congrArg String.toList hcardinality)]

theorem of_manyToManyRow_eq (x y : ManyToMany) (h : manyToManyRow x = manyToManyRow y) :
    (x.first, x.second, x.linking) = (y.first, y.second, y.linking) := by
  simp only [manyToManyRow, List.cons.injEq] at h
  obtain ⟨hfirst, hsecond, hlinking, _⟩ := h
  rw [hfirst, hsecond, hlinking]

theorem of_parentChildRow_eq (x y : ParentChild) (h : parentChildRow x = parentChildRow y) :
    (x.parent, x.child, x.depth) = (y.parent, y.child, y.depth) := by
  simp only [parentChildRow, List.cons.injEq] at h
  obtain ⟨hparent, hchild, hdepth, _⟩ := h
  rw [hparent, hchild, Decimal.eq_of_toString_eq (congrArg String.toList hdepth)]

theorem head?_nothingText {c : Char} (hc : c ≠ 'N') (r : Relations) :
    (nothingText r).toList.head? ≠ some c := by
  unfold nothingText
  split
  · intro h
    exact hc (Option.some.inj h).symm
  · intro h
    cases h

theorem relationTable_inj {r r' : Relations} (hr : NamedByWords r) (hr' : NamedByWords r')
    (h : relationTable r = relationTable r') : SameRelations r r' := by
  have hafter : ∀ r : Relations, ∀ c, c ≠ 'P' → c ≠ 'N' →
      ((listed "Parent-child" parentChildColumns "" (r.parentChild.map parentChildRow)).toList ++
        (nothingText r).toList).head? ≠ some c := by
    intro r c hc hn
    exact head?_listed rfl hc (head?_nothingText hn r)
  have htexts := congrArg String.toList h
  rw [relationTable_eq, relationTable_eq] at htexts
  obtain ⟨honeToMany, hrest⟩ := listed_inj (c := 'O') rfl
    (List.forall_mem_map.mpr fun x hx => isRow_oneToManyRow (hr.oneToMany x hx))
    (List.forall_mem_map.mpr fun x hx => isRow_oneToManyRow (hr'.oneToMany x hx))
    (head?_listed (c := 'M') rfl (by decide) (hafter r _ (by decide) (by decide)))
    (head?_listed (c := 'M') rfl (by decide) (hafter r' _ (by decide) (by decide))) htexts
  obtain ⟨hmanyToMany, hrest⟩ := listed_inj (c := 'M') rfl
    (List.forall_mem_map.mpr fun x hx => isRow_manyToManyRow (hr.manyToMany x hx))
    (List.forall_mem_map.mpr fun x hx => isRow_manyToManyRow (hr'.manyToMany x hx))
    (hafter r _ (by decide) (by decide)) (hafter r' _ (by decide) (by decide)) hrest
  obtain ⟨hparentChild, _⟩ := listed_inj (c := 'P') rfl
    (List.forall_mem_map.mpr fun x hx => isRow_parentChildRow (hr.parentChild x hx))
    (List.forall_mem_map.mpr fun x hx => isRow_parentChildRow (hr'.parentChild x hx))
    (head?_nothingText (by decide) r) (head?_nothingText (by decide) r') hrest
  constructor
  · exact map_eq_of_map_eq of_oneToManyRow_eq honeToMany
  · exact map_eq_of_map_eq of_manyToManyRow_eq hmanyToMany
  · exact map_eq_of_map_eq of_parentChildRow_eq hparentChild

end Report
end XmlShape
