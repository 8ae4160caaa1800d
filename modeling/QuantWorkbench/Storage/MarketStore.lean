import QuantWorkbench.Data.DailyBars
import QuantWorkbench.Lib.Raising

/-!
The daily bars of `MarketDataStore`: one file for each symbol, and the calls that merge a frame
into the files or replace them by it.
-/

namespace QuantWorkbench.Storage

open Lib Data

/-! ### Files -/

/-- The file of a symbol. A call writes all bars of a file with one version. -/
structure DailyFile where
  symbol : Symbol
  bars : List DailyBar
  sameSymbol : ∀ bar ∈ bars, bar.symbol = symbol
  increasing : Increasing DailyBar.date bars
  inRange : ∀ bar ∈ bars, bar.InRange
  oneVersion : ∀ bar ∈ bars, ∀ other ∈ bars, bar.dataVersion = other.dataVersion

/-- The directory of the files. -/
abbrev DailyLake := Keyed DailyFile.symbol

def DailyLake.bars (lake : DailyLake) (symbol : Symbol) : List DailyBar :=
  ((lake.get? symbol).map DailyFile.bars).getD []

/-- `read_parquet`. -/
def DailyFile.frame (file : DailyFile) : Frame where
  columns := canonicalDailyColumns
  rows := file.bars.map DailyBar.row
  outside := by
    intro row hrow column hcolumn
    obtain ⟨bar, _, rfl⟩ := List.mem_map.mp hrow
    rw [DailyBar.row, lookup_eq_none hcolumn]
    rfl

variable [CellReader]

/-! ### Groups -/

def groupSource (group : Frame) : Except String Text :=
  if "source".toList ∈ group.columns then
    orRaise (group.lastText "source".toList) "IndexError"
  else return "unknown".toList

def groupVersion (group : Frame) : Text :=
  (group.lastText "data_version".toList).getD "canonical-v1".toList

/-! ### Writes -/

/-- What the file system and the database do to a write. -/
inductive WriteFault where
  | file (error : String)
  | manifest (error : String)

/-- The clock and the faults at the write of a group. -/
structure GroupWrite where
  fetchedAt : Text
  fault : Option WriteFault

/-- The faults of a call, and the write of each group. -/
structure CallWrite where
  opens : Except String Unit
  group : Text → GroupWrite

/-- The provenance that all bars of a file get. -/
def groupProvenance (write : GroupWrite) (source : Text) (group : Frame) : Provenance :=
  ⟨source, write.fetchedAt, groupVersion group⟩

/-- What the new bars of a symbol are merged into. -/
def existingBars (lake : DailyLake) (replaceExisting : Bool) (symbol : Symbol) :
    Option DailyFile :=
  if replaceExisting then none else (lake.get? symbol).filter fun file => file.bars ≠ []

def mergedFrame (existing : Option DailyFile) (group : Frame) : Frame :=
  match existing with
  | none => group
  | some file => file.frame.concat group

theorem mem_normalized {raw : Frame} {symbol : Symbol} {provenance : Provenance}
    {bars : List DailyBar} (h : normalizeDailyBars raw symbol provenance = .ok bars)
    {bar : DailyBar} (hbar : bar ∈ bars) :
    bar.symbol = symbol ∧ bar.dataVersion = provenance.dataVersion ∧ bar.InRange := by
  rcases normalizeDailyBars_ok h with ⟨_, rfl⟩ | ⟨read, hread, rfl, hrange⟩
  · cases hbar
  · have hmem := (mem_lastByKey_iff.mp hbar).mem
    obtain ⟨row, _, date, rfl⟩ := hread.mem hmem
    exact ⟨rfl, rfl, hrange _ hmem⟩

theorem increasing_normalized {raw : Frame} {symbol : Symbol} {provenance : Provenance}
    {bars : List DailyBar} (h : normalizeDailyBars raw symbol provenance = .ok bars) :
    Increasing DailyBar.date bars := by
  rcases normalizeDailyBars_ok h with ⟨_, rfl⟩ | ⟨read, _, rfl, _⟩
  · exact List.Pairwise.nil
  · exact increasing_lastByKey read

def normalizedFile (raw : Frame) (symbol : Symbol) (provenance : Provenance) :
    Except String DailyFile :=
  match h : normalizeDailyBars raw symbol provenance with
  | .error error => .error error
  | .ok bars => .ok {
      symbol
      bars
      sameSymbol := fun _ hbar => (mem_normalized h hbar).1
      increasing := increasing_normalized h
      inRange := fun _ hbar => (mem_normalized h hbar).2.2
      oneVersion := fun _ hbar _ hother =>
        (mem_normalized h hbar).2.1.trans (mem_normalized h hother).2.1.symm }

/-- One turn of the loop of `_write_daily_bars`. -/
def writeGroup (replaceExisting : Bool) (write : GroupWrite) (frame : Frame) (rawSymbol : Text) :
    Raising String DailyLake Unit := do
  let group := frame.group rawSymbol
  let symbol ← Raising.lift (orRaise (normalizeSymbol rawSymbol) "invalid A-share symbol")
  let source ← Raising.lift (groupSource group)
  let existing ← Raising.read fun lake => existingBars lake replaceExisting symbol
  let file ← Raising.lift (normalizedFile (mergedFrame existing group) symbol
    (groupProvenance write source group))
  if let some (.file error) := write.fault then
    Raising.raise error
  Raising.change fun lake => lake.put file
  if let some (.manifest error) := write.fault then
    Raising.raise error

def writeBars (replaceExisting : Bool) (write : CallWrite) (frame : Frame) :
    Raising String DailyLake Unit := do
  Raising.lift write.opens
  if ¬ frame.Empty then
    Raising.check ("symbol".toList ∈ frame.columns) "daily bars require symbol"
    Raising.forEach (fun rawSymbol => writeGroup replaceExisting (write.group rawSymbol) frame
      rawSymbol) frame.symbols

def writeDailyBars (write : CallWrite) (frame : Frame) : Raising String DailyLake Unit :=
  writeBars false write frame

def replaceDailyBars (write : CallWrite) (frame : Frame) : Raising String DailyLake Unit :=
  writeBars true write frame

/-- `daily_profile`: the latest date, the number of bars and their version, which a file without
bars does not have. -/
def dailyProfile (lake : DailyLake) (symbol : Symbol) : Option Date × ℕ × Option Text :=
  match lake.get? symbol with
  | none => (none, 0, none)
  | some file =>
      match file.bars.getLast? with
      | none => (none, 0, none)
      | some last => (some last.date, file.bars.length, some last.dataVersion)

/-- The file that the write of a group puts. -/
structure PutsFile (replaceExisting : Bool) (write : GroupWrite) (lake : DailyLake) (frame : Frame)
    (rawSymbol : Text) (source : Text) (file : DailyFile) : Prop where
  named : normalizeSymbol rawSymbol = some file.symbol
  sourced : groupSource (frame.group rawSymbol) = .ok source
  written : normalizeDailyBars (mergedFrame (existingBars lake replaceExisting file.symbol)
    (frame.group rawSymbol)) file.symbol (groupProvenance write source (frame.group rawSymbol)) =
      .ok file.bars

theorem normalizedFile_ok {raw : Frame} {symbol : Symbol} {provenance : Provenance}
    {file : DailyFile} (h : normalizedFile raw symbol provenance = .ok file) :
    file.symbol = symbol ∧ normalizeDailyBars raw symbol provenance = .ok file.bars := by
  rw [normalizedFile] at h
  split at h
  · cases h
  · rename_i bars hbars
    cases h
    exact ⟨rfl, hbars⟩

theorem writeGroup_ends (replaceExisting : Bool) (write : GroupWrite) (frame : Frame)
    (rawSymbol : Text) (lake : DailyLake) :
    Raising.Ends (writeGroup replaceExisting write frame rawSymbol) lake
      (fun _ after => ∃ source file,
        PutsFile replaceExisting write lake frame rawSymbol source file ∧ after = lake.put file)
      (fun _ after => after = lake ∨ ∃ source file,
        PutsFile replaceExisting write lake frame rawSymbol source file ∧
          after = lake.put file) := by
  refine Raising.ends_lift_bind (fun symbol hsymbol => ?_) (fun _ _ => Or.inl rfl)
  refine Raising.ends_lift_bind (fun source hsource => ?_) (fun _ _ => Or.inl rfl)
  apply Raising.ends_read_bind
  refine Raising.ends_lift_bind (fun file hfile => ?_) (fun _ _ => Or.inl rfl)
  obtain ⟨rfl, hbars⟩ := normalizedFile_ok hfile
  have hputs : PutsFile replaceExisting write lake frame rawSymbol source file :=
    ⟨orRaise_eq_ok_iff.mp hsymbol, hsource, hbars⟩
  cases write.fault with
  | none => exact ⟨source, file, hputs, rfl⟩
  | some fault =>
      cases fault with
      | file error => exact Or.inl rfl
      | manifest error => exact Or.inr ⟨source, file, hputs, rfl⟩

end QuantWorkbench.Storage
