import LicenseForecast.Report.Table
import Mathlib.Data.List.Forall2
import Mathlib.Data.String.Basic

namespace LicenseForecast.Report

/-!
# The licence table is aligned

A column of the table is as wide as its longest text has bytes, but texts are filled up to that
width in characters.  The two go together because no text has fewer bytes than characters: the
number of blanks is never cut off at zero, whatever the texts are made of.

* `fits_widths` — every title and every text of a row fits into its column;
* `Cells.shows` — a line of cells has each of them where the widths say;
* `table_aligned` — so all lines of the table are divided into the same columns, with nothing lost.
-/

/-! ### Lines that are divided into columns -/

/-- The edge of a column at which its texts stand. -/
inductive Edge where
  | left
  | right

/-- A text with `n` blanks, which are on the other side than the edge. -/
def Edge.padded (edge : Edge) (text : String) (n : Nat) : String :=
  match edge with
  | .left => text ++ String.ofList (List.replicate n ' ')
  | .right => String.ofList (List.replicate n ' ') ++ text

/-- A cell is as many characters long as its column is wide, and has nothing but its text and
    blanks beside it. -/
structure Edge.Holds (edge : Edge) (width : Nat) (text cell : String) : Prop where
  length : cell.length = width
  padded : ∃ n, cell = edge.padded text n

/-- Each column holds its text. -/
inductive Cells : List Edge → List Nat → List String → List String → Prop
  | nil : Cells [] [] [] []
  | cons {edge : Edge} {width : Nat} {text cell : String} {edges : List Edge} {widths : List Nat}
      {texts cells : List String} : edge.Holds width text cell → Cells edges widths texts cells →
        Cells (edge :: edges) (width :: widths) (text :: texts) (cell :: cells)

/-- The number of characters in front of a column: those before it with two blanks each. -/
def columnStart : List Nat → Nat → Nat
  | [], _ => 0
  | _ :: _, 0 => 0
  | width :: widths, i + 1 => width + 2 + columnStart widths i

/-- A line is divided into columns that hold some texts.  Its length and where the columns are
    depend on the widths only. -/
structure Shows (edges : List Edge) (widths : List Nat) (texts : List String) (line : String) :
    Prop where
  cells : ∃ cells, Cells edges widths texts cells ∧ line = "  ".intercalate cells
  length : line.length + 2 = columnStart widths widths.length
  places : ∀ (i : Nat) (edge : Edge) (width : Nat) (text : String), edges[i]? = some edge →
    widths[i]? = some width → texts[i]? = some text →
      edge.Holds width text (String.ofList ((line.toList.drop (columnStart widths i)).take width))

section

variable {edges edges' : List Edge} {widths widths' : List Nat}
  {texts texts' cells cells' : List String}

/-- Cells side by side are cells. -/
theorem Cells.append (h : Cells edges widths texts cells)
    (h' : Cells edges' widths' texts' cells') :
    Cells (edges ++ edges') (widths ++ widths') (texts ++ texts') (cells ++ cells') := by
  induction h with
  | nil => exact h'
  | cons hcell _ ih => exact .cons hcell ih

/-- **A line is as long as its columns and the gaps between them.** -/
theorem Cells.length_line (h : Cells edges widths texts cells) (hne : cells ≠ []) :
    ("  ".intercalate cells).length + 2 = columnStart widths widths.length := by
  induction h with
  | nil => exact absurd rfl hne
  | @cons _ width _ cell _ widths _ cells hcell hrest ih =>
    rw [List.length_cons, columnStart]
    by_cases hlast : cells = []
    · subst hlast
      -- cells are two blanks apart, the last one has none behind it
      cases hrest
      rw [String.intercalate_singleton, hcell.length]
      rfl
    · have hline := ih hlast
      have hblanks : "  ".length = 2 := rfl
      rw [String.intercalate_cons_of_ne_nil hlast, String.length_append, String.length_append,
        hcell.length]
      omega

/-- **Each cell stands where its column starts** in the line, at its edge. -/
theorem Cells.places (h : Cells edges widths texts cells) {i width : Nat} {edge : Edge}
    {text : String} (hedge : edges[i]? = some edge) (hwidth : widths[i]? = some width)
    (htext : texts[i]? = some text) :
    edge.Holds width text (String.ofList
      ((("  ".intercalate cells).toList.drop (columnStart widths i)).take width)) := by
  induction h generalizing i with
  | nil => cases hedge
  | @cons edge' width' text' cell _ widths _ cells hcell hrest ih =>
    have hlength : cell.toList.length = width' := String.length_toList.trans hcell.length
    cases i with
    | zero =>
      cases hedge
      cases hwidth
      cases htext
      -- blanks come behind the first cell only if there is another one
      obtain ⟨tail, htail⟩ : ∃ tail,
          ("  ".intercalate (cell :: cells)).toList = cell.toList ++ tail := by
        by_cases hlast : cells = []
        · refine ⟨[], ?_⟩
          simp [hlast]
        · refine ⟨("  " ++ "  ".intercalate cells).toList, ?_⟩
          rw [String.intercalate_cons_of_ne_nil hlast, String.append_assoc, String.toList_append]
      rw [htail, columnStart, List.drop_zero, List.take_left' hlength, String.ofList_toList]
      exact hcell
    | succ i =>
      have hmore : cells ≠ [] := by
        rintro rfl
        cases hrest
        cases hedge
      rw [String.intercalate_cons_of_ne_nil hmore, columnStart, String.toList_append,
        ← List.drop_drop, List.drop_left' (by simp [hlength])]
      exact ih hedge hwidth htext

/-- **A line of cells has each of them where the widths say.** -/
theorem Cells.shows (h : Cells edges widths texts cells) (hne : texts ≠ []) :
    Shows edges widths texts ("  ".intercalate cells) where
  cells := ⟨cells, h, rfl⟩
  length := by
    apply h.length_line
    rintro rfl
    cases h
    exact hne rfl
  places := fun _ _ _ _ hedge hwidth htext => h.places hedge hwidth htext

end

/-! ### Texts that fit into their columns -/

/-- No text has more bytes than its column is wide. -/
def Fits (widths : List Nat) (texts : List String) : Prop :=
  List.Forall₂ (fun width text => text.utf8ByteSize ≤ width) widths texts

/-- A character takes one byte at least. -/
theorem length_le_utf8ByteSize (text : String) : text.length ≤ text.utf8ByteSize := by
  rw [← String.ofList_toList (s := text)]
  induction text.toList with
  | nil => simp
  | cons c rest ih =>
    have hc := Char.utf8Size_pos c
    rw [String.length_ofList] at ih ⊢
    rw [String.ofList_cons, String.utf8ByteSize_append, String.utf8ByteSize_singleton,
      List.length_cons]
    omega

/-- The blanks of a text that fits are exactly what it lacks. -/
theorem length_padding {width : Nat} {text : String} (h : text.utf8ByteSize ≤ width) :
    (padding width text).length + text.length = width := by
  rw [padding, String.length_ofList, List.length_replicate]
  exact Nat.sub_add_cancel ((length_le_utf8ByteSize text).trans h)

/-- Blanks behind a text leave it at the left edge. -/
theorem holds_padRight {width : Nat} {text : String} (h : text.utf8ByteSize ≤ width) :
    Edge.left.Holds width text (padRight width text) where
  length := by rw [padRight, String.length_append, Nat.add_comm, length_padding h]
  padded := ⟨_, rfl⟩

/-- Blanks in front of a text leave it at the right edge. -/
theorem holds_padLeft {width : Nat} {text : String} (h : text.utf8ByteSize ≤ width) :
    Edge.right.Holds width text (padLeft width text) where
  length := by rw [padLeft, String.length_append, length_padding h]
  padded := ⟨_, rfl⟩

section

variable {widths : List Nat} {texts more : List String}

/-- Texts that fit are cells of a line, whichever way they are padded. -/
theorem Fits.cells (h : Fits widths texts) {edge : Edge} {pad : Nat → String → String}
    (hpad : ∀ {width text}, text.utf8ByteSize ≤ width → edge.Holds width text (pad width text)) :
    Cells (List.replicate texts.length edge) widths texts (List.zipWith pad widths texts) := by
  induction h with
  | nil => exact .nil
  | cons hfits _ ih => exact .cons (hpad hfits) ih

/-- Widening leaves the number of columns. -/
theorem length_widen (h : more.length = widths.length) :
    (widen widths more).length = widths.length := by
  rw [widen, List.length_zipWith, h, Nat.min_self]

/-- Columns that are widened still hold what they held. -/
theorem Fits.widen (h : Fits widths texts) (hmore : more.length = widths.length) :
    Fits (widen widths more) texts := by
  induction h generalizing more with
  | nil => exact .nil
  | cons hfits _ ih =>
    obtain ⟨text, more, rfl⟩ := List.exists_cons_of_length_eq_add_one hmore
    exact .cons (hfits.trans (Nat.le_max_left _ _)) (ih (Nat.succ.inj hmore))

/-- Columns that are widened hold what they are widened for. -/
theorem fits_widen (hmore : more.length = widths.length) : Fits (widen widths more) more := by
  induction more generalizing widths with
  | nil =>
    obtain rfl := List.length_eq_zero_iff.mp hmore.symm
    exact .nil
  | cons text more ih =>
    obtain ⟨width, widths, rfl⟩ := List.exists_cons_of_length_eq_add_one hmore.symm
    exact .cons (Nat.le_max_right _ _) (ih (Nat.succ.inj hmore))

/-- Columns that are widened line by line hold every line. -/
theorem fits_foldl_widen {lines : List (List String)}
    (hlines : ∀ line ∈ lines, line.length = widths.length) :
    (∀ texts, Fits widths texts → Fits (lines.foldl widen widths) texts) ∧
      ∀ line ∈ lines, Fits (lines.foldl widen widths) line := by
  induction lines generalizing widths with
  | nil => exact ⟨fun _ h => h, nofun⟩
  | cons line lines ih =>
    have hline := hlines line List.mem_cons_self
    have hkept : ∀ line' ∈ lines, line'.length = (widen widths line).length := by
      intro line' hline'
      rw [length_widen hline]
      exact hlines line' (List.mem_cons_of_mem _ hline')
    -- the first line fits once the columns are widened for it, and still fits after the others
    obtain ⟨hfits, hrest⟩ := ih hkept
    refine ⟨fun texts h => hfits texts (h.widen hline), ?_⟩
    rintro line' (_ | ⟨_, hline'⟩)
    · exact hfits line (fits_widen hline)
    · exact hrest line' hline'

end

/-- **Every text fits**, the titles as well as those of each row. -/
theorem fits_widths (rows : List Row) :
    Fits (widths rows) headers ∧ ∀ row ∈ rows, Fits (widths rows) (cells row) := by
  have hlines : ∀ line ∈ rows.map cells,
      line.length = (headers.map String.utf8ByteSize).length := by
    intro line hline
    obtain ⟨row, -, rfl⟩ := List.mem_map.mp hline
    rfl
  obtain ⟨hfits, hrows⟩ := fits_foldl_widen hlines
  refine ⟨hfits headers ?_, fun row hrow => hrows _ (List.mem_map.mpr ⟨row, hrow, rfl⟩)⟩
  exact List.forall₂_map_left_iff.mpr (List.forall₂_same.mpr fun _ _ => Nat.le_refl _)

/-! ### The lines of the table -/

/-- A style that leaves texts alone leaves the last cell alone. -/
theorem mapLast_eq_self {f : String → String} (hf : ∀ s, f s = s) (texts : List String) :
    mapLast f texts = texts := by
  fun_induction mapLast f texts with
  | case1 => rfl
  | case2 s => rw [hf]
  | case3 s rest _ ih => rw [ih]

/-- **The cells of a row are aligned**: the first three at the left, the others at the right. -/
theorem cells_alignedCells {widths : List Nat} {row : Row} (h : Fits widths (cells row)) :
    Cells [.left, .left, .left, .right, .right, .right] widths (cells row)
      (alignedCells widths (cells row)) := by
  have htexts : Fits (widths.take textColumns) ((cells row).take textColumns) :=
    List.forall₂_take _ h
  have hfigures : Fits (widths.drop textColumns) ((cells row).drop textColumns) :=
    List.forall₂_drop _ h
  have hcells := (htexts.cells holds_padRight).append (hfigures.cells holds_padLeft)
  rw [List.take_append_drop, List.take_append_drop] at hcells
  exact hcells

/-- **The licence table is aligned and loses nothing.**  Below a line of titles it has a line for
    each row, and six widths divide all these lines alike: texts stand on the left of their columns
    and the figures of a row on the right, each as it is. -/
theorem table_aligned (forecast : Forecast) :
    ∃ (widths : List Nat) (header : String) (lines : List String), widths.length = 6 ∧
      table false forecast = String.join ((header :: lines).map (· ++ "\n")) ∧
      Shows [.left, .left, .left, .left, .left, .left] widths
        ["PRODUCT", "TAG", "METRIC", "OLD", "NEW", "DELTA"] header ∧
      List.Forall₂ (fun (row : Row) line =>
        Shows [.left, .left, .left, .right, .right, .right] widths
          [row.product.name, row.product.tag, row.metricName, toString row.oldLicenses,
            toString row.newLicenses, withSign row.delta] line) forecast.rows lines := by
  obtain ⟨hheader, hrows⟩ := fits_widths forecast.rows
  refine ⟨widths forecast.rows, _, forecast.rows.map fun row =>
    "  ".intercalate (alignedCells (widths forecast.rows) (cells row)), hheader.length_eq, ?_,
    (hheader.cells holds_padRight).shows (List.cons_ne_nil _ _), ?_⟩
  · have hrowLine : ∀ row, rowLine false (widths forecast.rows) row
        = "  ".intercalate (alignedCells (widths forecast.rows) (cells row)) ++ "\n" := by
      intro row
      rw [rowLine, mapLast_eq_self (styled_false _)]
    rw [table, headerLine, styled_false, List.map_cons, String.join_cons, List.map_map]
    congr 2
    exact List.map_congr_left fun row _ => hrowLine row
  · rw [List.forall₂_map_right_iff, List.forall₂_same]
    intro row hrow
    exact (cells_alignedCells (hrows row hrow)).shows (List.cons_ne_nil _ _)

-- the name has 11 characters and 13 bytes
example : table false ⟨[⟨"cores", 7, 12, 5, ⟨"Überprüfung", "t"⟩⟩]⟩
    = "PRODUCT        TAG  METRIC  OLD  NEW  DELTA\n" ++
      "Überprüfung    t    cores     7   12     +5\n" := by
  decide +kernel

end LicenseForecast.Report
