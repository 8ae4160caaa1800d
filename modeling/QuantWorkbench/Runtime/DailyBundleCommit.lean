import QuantWorkbench.Lib.JsonBytes
import QuantWorkbench.Runtime.DailyBundle
import QuantWorkbench.Storage.OfficialSignalRuns

/-!
The publication of a daily bundle as one commit: wherever `publish` and later runs of `recover` are
killed, a `recover` that is not ends with both artifacts as they were or both as they were staged.
The published files can be opened exactly if the line end still fits into them.
-/

namespace QuantWorkbench.Runtime

open Lib Advisory Market Signals QuantWorkbench.Storage

/-! ### Texts with a line end -/

theorem dumps_ne_nil {document : Json} (h : document.Canonical) : Json.dumps document ≠ [] := by
  intro hnil
  have hread := h.loads_dumps
  rw [hnil] at hread
  cases hread

namespace DailyBundleTransaction

theorem publishedText_size (document : Json) :
    (publishedText document).utf8.length = (Json.dumps document).utf8.length + 1 := by
  rw [publishedText, Text.utf8_append, List.length_append]
  rfl

theorem loads_publishedText {document : Json} (h : document.Canonical) :
    Json.loads (publishedText document) = some document := h.loads_dumps_newline

section

variable {F : Type} [FloatFormat F] [FoldTable]

theorem decodeSignalArtifact_publishedText {document : Json} (h : document.Canonical)
    (hsize : (Json.dumps document).utf8.length < signalArtifactLimit) :
    decodeSignalArtifact (F := F) (publishedText document) =
      decodeSignalArtifact (Json.dumps document) := by
  have hplain : Json.dumps document ≠ [] ∧
      (Json.dumps document).utf8.length ≤ signalArtifactLimit := ⟨dumps_ne_nil h, by omega⟩
  have hline : publishedText document ≠ [] ∧
      (publishedText document).utf8.length ≤ signalArtifactLimit := by
    rw [publishedText_size]
    exact ⟨List.append_ne_nil_of_right_ne_nil _ (List.cons_ne_nil _ _), hsize⟩
  rw [decodeSignalArtifact, decodeSignalArtifact]
  simp only [guard, if_pos hplain, if_pos hline, h.loads_dumps, loads_publishedText h]

theorem openSignalStore_size {text : Text} {store : SignalStore F}
    (h : openSignalStore (some text) = .ok store) : text.utf8.length ≤ signalArtifactLimit := by
  obtain ⟨_, hdecode, _⟩ := bind_eq_ok_iff.mp h
  have hread := orRaise_eq_ok_iff.mp hdecode
  rw [decodeSignalArtifact] at hread
  obtain ⟨_, hguard, _⟩ := Option.bind_eq_some_iff.mp hread
  exact (guard_eq_some_iff.mp hguard).2

/-- The published file has the signals of the staged document while there is room for the line
end. -/
theorem openSignalStore_publishedText {document : Json} {staged : SignalStore F}
    (h : document.Canonical) (hsize : (Json.dumps document).utf8.length ≠ signalArtifactLimit)
    (hopen : openSignalStore (some (Json.dumps document)) = .ok staged) :
    ∃ store : SignalStore F, openSignalStore (some (publishedText document)) = .ok store ∧
      store.memory = staged.memory := by
  have hfits := openSignalStore_size hopen
  have hsame := decodeSignalArtifact_publishedText (F := F) h (by omega)
  rw [openSignalStore] at hopen ⊢
  obtain ⟨signals, hsignals, hopen⟩ := bind_eq_ok_iff.mp hopen
  rw [← hsame] at hsignals
  split at hopen
  · rename_i hnodup
    cases hopen
    exact ⟨⟨some (publishedText document), ⟨signals, hnodup⟩⟩,
      bind_eq_ok_iff.mpr ⟨signals, hsignals, dif_pos hnodup⟩, rfl⟩
  · cases hopen

end

section

variable [CaseTable]

theorem decodeGuidance_publishedText {document : Json} {now : ℤ} (h : document.Canonical)
    (hsize : (Json.dumps document).utf8.length < guidanceLimit) :
    decodeGuidance now (publishedText document) = decodeGuidance now (Json.dumps document) := by
  have hplain : Json.dumps document ≠ [] ∧
      (Json.dumps document).utf8.length ≤ guidanceLimit := ⟨dumps_ne_nil h, by omega⟩
  have hline : publishedText document ≠ [] ∧
      (publishedText document).utf8.length ≤ guidanceLimit := by
    rw [publishedText_size]
    exact ⟨List.append_ne_nil_of_right_ne_nil _ (List.cons_ne_nil _ _), hsize⟩
  rw [decodeGuidance, decodeGuidance]
  simp only [guard, if_pos hplain, if_pos hline, h.loads_dumps, loads_publishedText h]

theorem openGuidance_size {now : ℤ} {text : Text} {memory : GuidanceMemory}
    (h : openGuidance now (some text) = .ok memory) : text.utf8.length ≤ guidanceLimit := by
  have hread := orRaise_eq_ok_iff.mp h
  rw [decodeGuidance] at hread
  obtain ⟨_, hguard, _⟩ := Option.bind_eq_some_iff.mp hread
  exact (guard_eq_some_iff.mp hguard).2

theorem openGuidance_publishedText {document : Json} {now : ℤ} {memory : GuidanceMemory}
    (h : document.Canonical) (hsize : (Json.dumps document).utf8.length ≠ guidanceLimit)
    (hopen : openGuidance now (some (Json.dumps document)) = .ok memory) :
    openGuidance now (some (publishedText document)) = .ok memory := by
  have hfits := openGuidance_size hopen
  rw [openGuidance, decodeGuidance_publishedText h (by omega)]
  exact hopen

end

/-! ### The journal -/

variable (transaction : DailyBundleTransaction)

theorem pathMembers_canonical : (Json.obj transaction.pathMembers).Canonical := by
  obtain ⟨signalPath, guidancePath, _⟩ := transaction
  cases guidancePath with
  | none =>
      refine Json.Canonical.obj ["signals".toList] rfl (by decide) ?_
      simp [pathMembers, Json.Canonical.str]
  | some path =>
      refine Json.Canonical.obj ["guidance".toList, "signals".toList] rfl (by decide) ?_
      simp [pathMembers, Json.Canonical.str]

theorem body_canonical (day : Date) (documents : StagedDocuments) (holdings : List Text) :
    (transaction.body day documents holdings).Canonical := by
  have hdocuments : (Json.obj documents.members).Canonical :=
    Json.Canonical.obj _ rfl documents.ordered documents.canonical
  refine Json.Canonical.obj bodyFields rfl (by decide) ?_
  simp [-List.map_map, hdocuments, Json.Canonical.int, Json.Canonical.str,
    Json.Canonical.arr_map Json.Canonical.str, transaction.pathMembers_canonical]

theorem journal_canonical {body : Json} (h : body.Canonical) :
    (Json.obj [("body".toList, body),
      ("sha256".toList, .str (Sha256.ofText (Json.dumps body)))]).Canonical := by
  refine Json.Canonical.obj ["body".toList, "sha256".toList] rfl (by decide) ?_
  simp [h, Json.Canonical.str]

theorem readCheckedJson_journalText {body : Json} (h : body.Canonical)
    (hsize : (journalText body).utf8.length ≤ maxBytes) :
    readCheckedJson (journalText body) = .ok body := by
  have hpayload := journal_canonical h
  refine bind_eq_ok_iff.mpr ⟨(), require_eq_ok_iff.mpr hsize, ?_⟩
  refine bind_eq_ok_iff.mpr ⟨_, orRaise_eq_ok_iff.mpr hpayload.loads_dumps_newline, ?_⟩
  refine bind_eq_ok_iff.mpr ⟨(), require_eq_ok_iff.mpr (Json.hasKeys_obj _ rfl), ?_⟩
  refine bind_eq_ok_iff.mpr ⟨body, rfl, ?_⟩
  exact bind_eq_ok_iff.mpr ⟨(), require_eq_ok_iff.mpr rfl, rfl⟩

theorem documentOf_canonical (day : Date) (documents : StagedDocuments) (holdings : List Text)
    (key : Text) : (documentOf (transaction.body day documents holdings) key).Canonical := by
  have hbody : (transaction.body day documents holdings).member? "documents".toList =
      some (.obj documents.members) := rfl
  rw [documentOf, hbody, Option.bind_some, Json.member?]
  cases hfound : documents.members.find? fun member => member.1 = key with
  | none => exact Json.Canonical.null
  | some member => exact documents.canonical member (List.mem_of_find?_eq_some hfound)

/-! ### Validation at a later time -/

section

variable [CaseTable]

theorem validatePlans_later {now later : ℤ} (hlater : now ≤ later) {day : Date}
    {symbols : List Data.Symbol} {holdings : List Text} {text : Text}
    (h : validatePlans now day symbols holdings text = .ok ()) :
    validatePlans later day symbols holdings text = .ok () := by
  obtain ⟨memory, hopen, hrest⟩ := bind_eq_ok_iff.mp h
  exact bind_eq_ok_iff.mpr ⟨memory, openGuidance_later hlater hopen, hrest⟩

variable {F : Type} [FloatFormat F] [FoldTable]

theorem validateDocuments_later {now later : ℤ} (hlater : now ≤ later) {day : Date}
    {holdings : List Text} {body : Json}
    (h : validateDocuments transaction F now day holdings body = .ok ()) :
    validateDocuments transaction F later day holdings body = .ok () := by
  obtain ⟨store, hstore, h⟩ := bind_eq_ok_iff.mp h
  obtain ⟨signals, hsignals, h⟩ := bind_eq_ok_iff.mp h
  obtain ⟨_, hsession, h⟩ := bind_eq_ok_iff.mp h
  refine bind_eq_ok_iff.mpr ⟨store, hstore, ?_⟩
  refine bind_eq_ok_iff.mpr ⟨signals, hsignals, ?_⟩
  refine bind_eq_ok_iff.mpr ⟨(), hsession, ?_⟩
  by_cases hguidance : transaction.guidancePath.isSome = true
  · rw [if_pos hguidance] at h ⊢
    exact validatePlans_later hlater h
  · rw [if_neg hguidance]
    rfl

theorem validate_later {now later : ℤ} (hlater : now ≤ later) {body : Json}
    (h : transaction.validate F now body = .ok ()) :
    transaction.validate F later body = .ok () := by
  obtain ⟨_, hkeys, h⟩ := bind_eq_ok_iff.mp h
  obtain ⟨_, htargets, h⟩ := bind_eq_ok_iff.mp h
  obtain ⟨day, hday, h⟩ := bind_eq_ok_iff.mp h
  obtain ⟨holdings, hholdings, h⟩ := bind_eq_ok_iff.mp h
  obtain ⟨_, huniverse, h⟩ := bind_eq_ok_iff.mp h
  refine bind_eq_ok_iff.mpr ⟨(), hkeys, ?_⟩
  refine bind_eq_ok_iff.mpr ⟨(), htargets, ?_⟩
  refine bind_eq_ok_iff.mpr ⟨day, hday, ?_⟩
  refine bind_eq_ok_iff.mpr ⟨holdings, hholdings, ?_⟩
  exact bind_eq_ok_iff.mpr ⟨(), huniverse, validateDocuments_later transaction hlater h⟩

/-- Both stores open on the staged documents that were validated. -/
theorem staged_of_validate {now : ℤ} {body : Json}
    (h : transaction.validate F now body = .ok ()) :
    (∃ store : SignalStore F,
      openSignalStore (some (Json.dumps (documentOf body "signals".toList))) = .ok store) ∧
    (transaction.guidancePath.isSome = true → ∃ memory,
      openGuidance now (some (Json.dumps (documentOf body "guidance".toList))) = .ok memory) := by
  obtain ⟨_, _, h⟩ := bind_eq_ok_iff.mp h
  obtain ⟨_, _, h⟩ := bind_eq_ok_iff.mp h
  obtain ⟨day, _, h⟩ := bind_eq_ok_iff.mp h
  obtain ⟨holdings, _, h⟩ := bind_eq_ok_iff.mp h
  obtain ⟨_, _, h⟩ := bind_eq_ok_iff.mp h
  obtain ⟨store, hstore, h⟩ := bind_eq_ok_iff.mp h
  obtain ⟨signals, _, h⟩ := bind_eq_ok_iff.mp h
  obtain ⟨_, _, h⟩ := bind_eq_ok_iff.mp h
  refine ⟨⟨store, hstore⟩, fun hguidance => ?_⟩
  rw [if_pos hguidance] at h
  obtain ⟨memory, hopen, _⟩ := bind_eq_ok_iff.mp h
  exact ⟨memory, hopen⟩

end

/-! ### Replacements -/

def replaceOne (body : Json) (files : Files) (path : Text × Text) : Files :=
  Function.update files path.2 (some (publishedText (documentOf body path.1)))

/-- The files have the documents of the body. -/
def Published (body : Json) (files : Files) : Prop :=
  ∀ path ∈ transaction.paths, files path.2 = some (publishedText (documentOf body path.1))

theorem published_replaced (body : Json) (files : Files) :
    transaction.Published body (transaction.paths.foldl (replaceOne body) files) := by
  obtain ⟨signalPath, guidancePath, distinct⟩ := transaction
  cases guidancePath with
  | none =>
      intro path hpath
      cases List.mem_singleton.mp hpath
      exact Function.update_self ..
  | some guidance =>
      have hne : signalPath ≠ guidance := fun heq => distinct (congrArg some heq.symm)
      intro path hpath
      rcases List.mem_pair.mp hpath with rfl | rfl
      · exact (Function.update_of_ne hne ..).trans (Function.update_self ..)
      · exact Function.update_self ..

theorem Published.signals {body : Json} {files : Files} (h : transaction.Published body files) :
    files transaction.signalPath =
      some (publishedText (documentOf body "signals".toList)) :=
  h ("signals".toList, transaction.signalPath) List.mem_cons_self

theorem Published.guidance {body : Json} {files : Files} (h : transaction.Published body files)
    {path : Text} (hpath : path ∈ transaction.guidancePath) :
    files path = some (publishedText (documentOf body "guidance".toList)) := by
  refine h ("guidance".toList, path) (List.mem_cons_of_mem _ ?_)
  rw [hpath]
  exact List.mem_singleton_self _

def BesideJournal : Prop := ∀ path ∈ transaction.paths, path.2 ≠ journalPath

/-- The program of `_apply` up to the removal of the journal. -/
def replacements (body : Json) (paths : List (Text × Text)) : Program Files Unit :=
  Program.forEach (fun path => writeFile path.2 (publishedText (documentOf body path.1))) paths

theorem run_replacements (body : Json) (paths : List (Text × Text)) (files : Files) :
    (replacements body paths).run files = (.ok (), paths.foldl (replaceOne body) files) := by
  induction paths generalizing files with
  | nil => rfl
  | cons path rest ih => exact ih (replaceOne body files path)

theorem killSafe_replacements {body : Json} {journal : Text} {paths : List (Text × Text)}
    {files : Files} (hbeside : ∀ path ∈ paths, path.2 ≠ journalPath)
    (h : files journalPath = some journal) :
    Program.KillSafe (fun disk => disk journalPath = some journal) (replacements body paths)
        files ∧
      paths.foldl (replaceOne body) files journalPath = some journal := by
  induction paths generalizing files with
  | nil => exact ⟨trivial, h⟩
  | cons path rest ih =>
      have hkept : replaceOne body files path journalPath = some journal :=
        (Function.update_of_ne (hbeside path List.mem_cons_self).symm ..).trans h
      have hrest := ih (fun other hother => hbeside other (List.mem_cons_of_mem _ hother)) hkept
      exact ⟨⟨h, hrest.1⟩, hrest.2⟩

theorem run_apply (body : Json) (files : Files) :
    (transaction.apply body).run files = (.ok (Sha256.ofText (Json.dumps body)),
      Function.update (transaction.paths.foldl (replaceOne body) files) journalPath none) :=
  Program.run_bind_ok (run_replacements body transaction.paths files)

/-- The journal is there while the artifacts are replaced. -/
theorem killSafe_apply {body : Json} {journal : Text} {files : Files}
    (hbeside : transaction.BesideJournal) (h : files journalPath = some journal) :
    Program.KillSafe (fun disk => disk journalPath = some journal) (transaction.apply body)
      files := by
  obtain ⟨hsafe, hjournal⟩ := killSafe_replacements hbeside h
  refine Program.killSafe_bind_iff.mpr ⟨hsafe, fun value after hrun => ?_⟩
  rw [← replacements, run_replacements] at hrun
  cases hrun
  exact ⟨hjournal, trivial⟩

/-! ### The commit -/

/-- The journal has the body, and the replacements may have begun. -/
def Pending (body : Json) (files : Files) : Prop := files journalPath = some (journalText body)

def Finished (body : Json) (files : Files) : Prop :=
  files journalPath = none ∧ transaction.Published body files

/-- The journal was durable. -/
def Underway (body : Json) (files : Files) : Prop :=
  Pending body files ∨ transaction.Finished body files

theorem apply_underway {body : Json} {files : Files} (hbeside : transaction.BesideJournal)
    (h : Pending body files) :
    Program.KillSafe (transaction.Underway body) (transaction.apply body) files ∧
      transaction.Finished body ((transaction.apply body).run files).2 := by
  refine ⟨(transaction.killSafe_apply hbeside h).imp fun _ hjournal => .inl hjournal, ?_⟩
  rw [run_apply]
  have hremoved : Function.update (transaction.paths.foldl (replaceOne body) files) journalPath none
      journalPath = none := Function.update_self ..
  refine ⟨hremoved, fun path hpath => ?_⟩
  exact (Function.update_of_ne (hbeside path hpath) ..).trans
    (transaction.published_replaced body files path hpath)

section

variable (F : Type) [FloatFormat F] [FoldTable] [CaseTable]

abbrev bodyOf (publication : Publication) (documents : StagedDocuments) : Json :=
  transaction.body publication.day documents publication.holdingSymbols

/-- `publish` gets as far as to its journal. -/
def Accepted (publication : Publication) (documents : StagedDocuments) : Prop :=
  publication.staged = some documents ∧
    transaction.validate F publication.now
        (transaction.bodyOf publication documents) = .ok () ∧
      (journalText (transaction.bodyOf publication documents)).utf8.length ≤ maxBytes

variable {F}

/-- A `recover` without a journal does nothing. -/
theorem recover_of_none (now : ℤ) {body : Json} {files : Files} (h : files journalPath = none) :
    Program.KillSafe (transaction.Underway body) (transaction.recover F now) files ∧
      (transaction.recover F now).run files = (.ok false, files) := by
  rw [recover, Program.bind_eq, Program.killSafe_see_bind, Program.run_see_bind, h]
  exact ⟨trivial, rfl⟩

theorem recover_of_pending {now : ℤ} {body : Json} {files : Files} (hbody : body.Canonical)
    (hsize : (journalText body).utf8.length ≤ maxBytes)
    (hvalid : transaction.validate F now body = .ok ()) (hbeside : transaction.BesideJournal)
    (h : Pending body files) :
    Program.KillSafe (transaction.Underway body) (transaction.recover F now) files ∧
      ∃ after, (transaction.recover F now).run files = (.ok true, after) ∧
        transaction.Finished body after := by
  obtain ⟨hsafe, hfinished⟩ := transaction.apply_underway hbeside h
  rw [recover, Program.bind_eq, Program.killSafe_see_bind, Program.run_see_bind, h]
  simp only [Program.bind_eq, readCheckedJson_journalText hbody hsize, hvalid, Program.bind]
  refine ⟨Program.killSafe_bind_iff.mpr ⟨hsafe, fun _ _ _ => trivial⟩, _,
    Program.run_bind_ok (transaction.run_apply body files), ?_⟩
  rw [run_apply] at hfinished
  exact hfinished

/-- The clock does not run back. -/
theorem recover_of_underway {publication : Publication} {documents : StagedDocuments} {now : ℤ}
    {files : Files} (hbeside : transaction.BesideJournal)
    (haccepted : transaction.Accepted F publication documents) (hnow : publication.now ≤ now)
    (h : transaction.Underway
      (transaction.bodyOf publication documents) files) :
    Program.KillSafe (transaction.Underway
        (transaction.bodyOf publication documents))
      (transaction.recover F now) files ∧
      ∃ applied after, (transaction.recover F now).run files = (.ok applied, after) ∧
        transaction.Finished
          (transaction.bodyOf publication documents) after := by
  obtain ⟨_, hvalid, hsize⟩ := haccepted
  rcases h with hpending | hfinished
  · obtain ⟨hsafe, after, hrun, hafter⟩ := transaction.recover_of_pending
      (transaction.body_canonical ..) hsize (transaction.validate_later hnow hvalid) hbeside
      hpending
    exact ⟨hsafe, true, after, hrun, hafter⟩
  · obtain ⟨hsafe, hrun⟩ := transaction.recover_of_none (F := F) now hfinished.1
    exact ⟨hsafe, false, files, hrun, hfinished⟩

theorem killed_publish {publication : Publication} {documents : StagedDocuments} {files : Files}
    (hnone : files journalPath = none)
    (haccepted : transaction.Accepted F publication documents) (number : ℕ) :
    (transaction.publish F publication).killed (number + 1) files =
      (transaction.apply (transaction.bodyOf publication documents)).killed number
        (Function.update files journalPath
          (some (journalText (transaction.bodyOf publication documents)))) := by
  obtain ⟨hstaged, hvalid, hsize⟩ := haccepted
  rw [publish, Program.bind_eq, Program.killed_see_bind, hnone, if_neg (by simp), hstaged]
  simp only [Program.bind_eq, hvalid, Program.bind, if_neg (Nat.not_lt.mpr hsize)]
  rfl

/-- A publication that is not accepted changes nothing. -/
theorem killed_publish_of_rejected {publication : Publication} {files : Files}
    (hnone : files journalPath = none)
    (hrejected : ∀ documents, ¬transaction.Accepted F publication documents) (number : ℕ) :
    (transaction.publish F publication).killed number files = files := by
  rw [publish, Program.bind_eq, Program.killed_see_bind, hnone, if_neg (by simp)]
  cases hstaged : publication.staged with
  | none => rfl
  | some documents =>
      simp only [Program.bind_eq]
      cases hvalid : transaction.validate F publication.now
          (transaction.bodyOf publication documents) with
      | error error => rfl
      | ok valid =>
          have hlarge : maxBytes <
              (journalText (transaction.bodyOf publication documents)).utf8.length := by
            by_contra hfits
            exact hrejected documents ⟨hstaged, hvalid, Nat.not_lt.mp hfits⟩
          simp only [Program.bind, if_pos hlarge]
          rfl

/-- Both stores open on the published files and have what they have for the staged documents. -/
structure Loads (F : Type) [FloatFormat F] [FoldTable] [CaseTable] (now : ℤ) (body : Json)
    (files : Files) : Prop where
  signals : ∃ staged store : SignalStore F,
    openSignalStore (some (Json.dumps (documentOf body "signals".toList))) = .ok staged ∧
      openSignalStore (files transaction.signalPath) = .ok store ∧ store.memory = staged.memory
  guidance : ∀ path ∈ transaction.guidancePath, ∃ memory,
    openGuidance now (some (Json.dumps (documentOf body "guidance".toList))) = .ok memory ∧
      openGuidance now (files path) = .ok memory

/-- There is room for the line end in the files of the stores. -/
structure HasRoom (body : Json) : Prop where
  signals : (Json.dumps (documentOf body "signals".toList)).utf8.length ≠ signalArtifactLimit
  guidance : transaction.guidancePath.isSome = true →
    (Json.dumps (documentOf body "guidance".toList)).utf8.length ≠ guidanceLimit

theorem Published.loads {publication : Publication} {documents : StagedDocuments} {now : ℤ}
    {files : Files} (haccepted : transaction.Accepted F publication documents)
    (hnow : publication.now ≤ now)
    (hroom : transaction.HasRoom
      (transaction.bodyOf publication documents))
    (h : transaction.Published
      (transaction.bodyOf publication documents) files) :
    transaction.Loads F now
      (transaction.bodyOf publication documents) files := by
  obtain ⟨_, hvalid, _⟩ := haccepted
  have hdocument := transaction.documentOf_canonical publication.day documents
    publication.holdingSymbols
  obtain ⟨⟨staged, hstaged⟩, hguidance⟩ :=
    transaction.staged_of_validate (transaction.validate_later hnow hvalid)
  constructor
  · obtain ⟨store, hopen, hmemory⟩ :=
      openSignalStore_publishedText (hdocument "signals".toList) hroom.signals hstaged
    rw [Published.signals transaction h]
    exact ⟨staged, store, hstaged, hopen, hmemory⟩
  · intro path hpath
    have hsome : transaction.guidancePath.isSome = true := Option.isSome_of_mem hpath
    obtain ⟨memory, hmemory⟩ := hguidance hsome
    rw [Published.guidance transaction h hpath]
    exact ⟨memory, hmemory, openGuidance_publishedText (hdocument "guidance".toList)
      (hroom.guidance hsome) hmemory⟩

theorem Loads.hasRoom {now : ℤ} {body : Json} {files : Files}
    (hpublished : transaction.Published body files) (h : transaction.Loads F now body files) :
    transaction.HasRoom body := by
  constructor
  · obtain ⟨_, store, _, hopen, _⟩ := h.signals
    rw [Published.signals transaction hpublished] at hopen
    have hfits := openSignalStore_size hopen
    rw [publishedText_size] at hfits
    omega
  · intro hsome
    obtain ⟨path, hpath⟩ := Option.isSome_iff_exists.mp hsome
    obtain ⟨memory, _, hopen⟩ := h.guidance path hpath
    rw [Published.guidance transaction hpublished hpath] at hopen
    have hfits := openGuidance_size hopen
    rw [publishedText_size] at hfits
    omega

variable (F)

def Committed (publication : Publication) (now : ℤ) (files : Files) : Prop :=
  ∃ documents, publication.staged = some documents ∧
    transaction.Published (transaction.bodyOf publication documents)
      files ∧
    transaction.Loads F now
      (transaction.bodyOf publication documents) files

/-- `publish` is killed before some operation, or returns, and then so is each of some runs of
`recover`. The one that runs to its end does not raise, and it leaves no journal and both artifacts
as they were or as they were staged; as staged, once the journal was durable. -/
def LogicalCommit (publication : Publication) (files : Files) : Prop :=
  ∀ (cut : ℕ) (kills : List (ℤ × ℕ)) (now : ℤ),
    (∀ kill ∈ kills, publication.now ≤ kill.1) → publication.now ≤ now →
      ∃ applied after,
        (transaction.recover F now).run (Program.restarted (transaction.recover F) kills
          ((transaction.publish F publication).killed cut files)) = (.ok applied, after) ∧
        after journalPath = none ∧
        ((∀ path ∈ transaction.paths, after path.2 = files path.2) ∨
          transaction.Committed F publication now after) ∧
        ((∃ number ≤ cut, ((transaction.publish F publication).killed number files
            journalPath).isSome = true) →
          transaction.Committed F publication now after)

variable {F}

/-- While the disk is as `publish` found it, `recover` leaves it so. -/
theorem restarted_of_none {files : Files} (hnone : files journalPath = none)
    (kills : List (ℤ × ℕ)) :
    Program.restarted (transaction.recover F) kills files = files := by
  refine Program.restarted_of_invariant (fun _ => True) (· = files) ?_ (fun _ _ => trivial) rfl
  rintro now - disk rfl
  rw [recover, Program.bind_eq, Program.killSafe_see_bind, Program.run_see_bind, hnone]
  exact ⟨trivial, rfl⟩

theorem endsUnchanged {publication : Publication} {files : Files}
    (hnone : files journalPath = none) {cut : ℕ} (kills : List (ℤ × ℕ)) (now : ℤ)
    (hsame : ∀ number ≤ cut,
      (transaction.publish F publication).killed number files = files) :
    ∃ applied after,
      (transaction.recover F now).run (Program.restarted (transaction.recover F) kills
        ((transaction.publish F publication).killed cut files)) = (.ok applied, after) ∧
      after journalPath = none ∧
      ((∀ path ∈ transaction.paths, after path.2 = files path.2) ∨
        transaction.Committed F publication now after) ∧
      ((∃ number ≤ cut, ((transaction.publish F publication).killed number files
          journalPath).isSome = true) →
        transaction.Committed F publication now after) := by
  rw [hsame cut le_rfl, transaction.restarted_of_none hnone]
  refine ⟨false, files, ?_, hnone, .inl fun _ _ => rfl, ?_⟩
  · rw [recover, Program.bind_eq, Program.run_see_bind, hnone]
    rfl
  · rintro ⟨number, hnumber, hjournal⟩
    rw [hsame number hnumber, hnone] at hjournal
    cases hjournal

theorem endsFinished {publication : Publication} {documents : StagedDocuments} {files : Files}
    (hnone : files journalPath = none) (hbeside : transaction.BesideJournal)
    (haccepted : transaction.Accepted F publication documents) (cut : ℕ)
    {kills : List (ℤ × ℕ)} (hkills : ∀ kill ∈ kills, publication.now ≤ kill.1) {now : ℤ}
    (hnow : publication.now ≤ now) :
    ∃ applied after,
      (transaction.recover F now).run (Program.restarted (transaction.recover F) kills
        ((transaction.publish F publication).killed (cut + 1) files)) = (.ok applied, after) ∧
      transaction.Finished
        (transaction.bodyOf publication documents) after := by
  have hstep : ∀ start, publication.now ≤ start → ∀ disk,
      transaction.Underway (transaction.bodyOf publication documents) disk →
        Program.KillSafe (transaction.Underway (transaction.bodyOf publication documents))
          (transaction.recover F start) disk ∧
        transaction.Underway (transaction.bodyOf publication documents)
          ((transaction.recover F start).run disk).2 := by
    intro start hstart disk hdisk
    obtain ⟨hkept, _, after, hrun, hafter⟩ :=
      transaction.recover_of_underway hbeside haccepted hstart hdisk
    rw [hrun]
    exact ⟨hkept, .inr hafter⟩
  have hjournal : Pending (transaction.bodyOf publication documents)
      (Function.update files journalPath
        (some (journalText (transaction.bodyOf publication documents)))) := Function.update_self ..
  obtain ⟨hsafe, hfinished⟩ := transaction.apply_underway hbeside hjournal
  have hkilled := Program.forall_killed_iff.mpr ⟨hsafe, .inr hfinished⟩ cut
  have hrestarted := Program.restarted_of_invariant (publication.now ≤ ·) _ hstep hkills hkilled
  obtain ⟨_, hend⟩ := transaction.recover_of_underway hbeside haccepted hnow hrestarted
  rw [transaction.killed_publish hnone haccepted]
  exact hend

/-- A commit needs a journal of its own and room for the line end. -/
theorem room_of_logicalCommit {publication : Publication} {documents : StagedDocuments}
    {files : Files} (hnone : files journalPath = none)
    (haccepted : transaction.Accepted F publication documents)
    (h : transaction.LogicalCommit F publication files) :
    transaction.BesideJournal ∧ transaction.HasRoom (transaction.bodyOf publication documents) := by
  have hdurable : ∃ number ≤ 1, ((transaction.publish F publication).killed number files
      journalPath).isSome = true := by
    refine ⟨1, le_rfl, ?_⟩
    rw [transaction.killed_publish hnone haccepted, Program.killed_zero, Function.update_self]
    rfl
  obtain ⟨_, after, _, hremoved, _, hcommitted⟩ := h 1 [] publication.now nofun le_rfl
  obtain ⟨staged, hstaged, hpublished, hloads⟩ := hcommitted hdurable
  obtain rfl : staged = documents := Option.some.inj (hstaged.symm.trans haccepted.1)
  refine ⟨fun path hpath hjournal => ?_, Loads.hasRoom transaction hpublished hloads⟩
  have hwritten := hpublished path hpath
  rw [hjournal, hremoved] at hwritten
  cases hwritten

theorem logicalCommit_iff {publication : Publication} {files : Files}
    (hnone : files journalPath = none) :
    transaction.LogicalCommit F publication files ↔
      ∀ documents, transaction.Accepted F publication documents →
        transaction.BesideJournal ∧ transaction.HasRoom
          (transaction.bodyOf publication documents) := by
  constructor
  · intro h documents haccepted
    exact transaction.room_of_logicalCommit hnone haccepted h
  · intro h cut kills now hkills hnow
    have hunchanged (hsame : ∀ number ≤ cut,
        (transaction.publish F publication).killed number files = files) :=
      transaction.endsUnchanged hnone kills now hsame
    by_cases haccepted : ∃ documents, transaction.Accepted F publication documents
    · obtain ⟨documents, haccepted⟩ := haccepted
      obtain ⟨hbeside, hroom⟩ := h documents haccepted
      cases cut with
      | zero =>
          apply hunchanged
          rintro number hnumber
          rw [Nat.le_zero.mp hnumber, Program.killed_zero]
      | succ cut =>
          obtain ⟨applied, after, hrun, hremoved, hpublished⟩ :=
            transaction.endsFinished hnone hbeside haccepted cut hkills hnow
          have hcommitted : transaction.Committed F publication now after :=
            ⟨documents, haccepted.1, hpublished,
              Published.loads transaction haccepted hnow hroom hpublished⟩
          exact ⟨applied, after, hrun, hremoved, .inr hcommitted, fun _ => hcommitted⟩
    · push Not at haccepted
      exact hunchanged fun number _ =>
        transaction.killed_publish_of_rejected hnone haccepted number

end

section Sample

attribute [local instance] fiftyFormat lowercaseFold CaseTable.caseless

def longSignal (length : ℕ) : OfficialModelSignal Unit :=
  { sampleSignal with
    strategyVersion := 'v' :: List.replicate length 'v'
    strategyNamed := List.cons_ne_nil _ _ }

theorem utf8_cons (c : Char) (t : Text) : Text.utf8 (c :: t) = Text.utf8 [c] ++ Text.utf8 t :=
  Text.utf8_append [c] t

theorem longSignal_size (length : ℕ) :
    (Json.dumps (signalArtifact [longSignal length])).utf8.length =
      (Json.dumps (signalArtifact [longSignal 0])).utf8.length + length := by
  have hpadding : ∀ length,
      (Text.utf8 ((List.replicate length 'v').flatMap Json.escapeChar)).length = length := by
    intro length
    induction length with
    | zero => rfl
    | succ length ih =>
        rw [List.replicate_succ, List.flatMap_cons, Text.utf8_append, List.length_append, ih]
        exact Nat.add_comm 1 length
  rw [Json.dumps, Json.dumps, (signalArtifact_canonical _).sorted,
    (signalArtifact_canonical _).sorted]
  simp only [signalArtifact, List.map, encodeSignal, Json.encode, Json.encodeItems,
    Json.encodeMembers, Json.quote, longSignal, List.flatMap_cons, Text.utf8_append,
    utf8_cons _ (_ ++ _), List.length_append, hpadding]
  omega

def largeSignal : OfficialModelSignal Unit :=
  longSignal (signalArtifactLimit - (Json.dumps (signalArtifact [longSignal 0])).utf8.length)

theorem largeSignal_size :
    (Json.dumps (signalArtifact [largeSignal])).utf8.length = signalArtifactLimit := by
  have hsmall : (Json.dumps (signalArtifact [longSignal 0])).utf8.length ≤ signalArtifactLimit :=
    by decide +kernel
  rw [largeSignal, longSignal_size]
  omega

/-- The candidates alone. -/
def signalTransaction : DailyBundleTransaction where
  signalPath := "signals.json".toList
  guidancePath := none
  distinct := nofun

def candidateDocuments {document : Json} (h : document.Canonical) : StagedDocuments where
  members := [("signals".toList, document)]
  ordered := List.pairwise_singleton ..
  canonical := by
    intro member hmember
    cases List.mem_singleton.mp hmember
    exact h

def sampleDay : Date := .of 2026 1 5

def candidatePublication {document : Json} (h : document.Canonical) : Publication where
  day := sampleDay
  staged := some (candidateDocuments h)
  holdingSymbols := []
  now := 0

/-- The journal of this transaction for some document. -/
def journalOf (document : Json) (digest : Text) : Json :=
  .obj [("body".toList, .obj [("documents".toList, .obj [("signals".toList, document)]),
      ("format_version".toList, .int 1),
      ("holding_symbols".toList, .arr []),
      ("paths".toList, .obj [("signals".toList, .str "signals.json".toList)]),
      ("session".toList, .str sampleDay.isoformat)]),
    ("sha256".toList, .str digest)]

theorem journalOf_size (document other : Json) (digest next : Text) :
    (journalOf document digest).encode.utf8.length + other.encode.utf8.length +
        (Text.utf8 (next.flatMap Json.escapeChar)).length =
      (journalOf other next).encode.utf8.length + document.encode.utf8.length +
        (Text.utf8 (digest.flatMap Json.escapeChar)).length := by
  simp only [journalOf, Json.encode, Json.encodeMembers, Json.quote, Text.utf8_append,
    utf8_cons _ (_ ++ _), List.length_append]
  omega

theorem digest_size (text : Text) :
    (Text.utf8 ((Sha256.ofText text).flatMap Json.escapeChar)).length = 64 := by
  have hplain : ∀ digits : Text, (∀ c ∈ digits, ∃ n < 16, c = Nat.digitChar n) →
      (Text.utf8 (digits.flatMap Json.escapeChar)).length = digits.length := by
    intro digits hdigits
    induction digits with
    | nil => rfl
    | cons c rest ih =>
        obtain ⟨n, hn, rfl⟩ := hdigits c List.mem_cons_self
        have hone : ∀ n < 16, (Text.utf8 (Json.escapeChar (Nat.digitChar n))).length = 1 := by
          decide
        rw [List.flatMap_cons, Text.utf8_append, List.length_append, hone n hn,
          ih fun other hother => hdigits other (List.mem_cons_of_mem _ hother), List.length_cons]
        omega
  exact (hplain _ (Sha256.hexdigest_digits text.utf8)).trans (Sha256.hexdigest_length text.utf8)

theorem candidate_body {document : Json} (h : document.Canonical) :
    signalTransaction.bodyOf (candidatePublication h) (candidateDocuments h) =
      .obj [("documents".toList, .obj [("signals".toList, document)]),
        ("format_version".toList, .int 1),
        ("holding_symbols".toList, .arr []),
        ("paths".toList, .obj [("signals".toList, .str "signals.json".toList)]),
        ("session".toList, .str sampleDay.isoformat)] := rfl

theorem journalText_size {document : Json} (h : document.Canonical) :
    (journalText (signalTransaction.bodyOf (candidatePublication h)
      (candidateDocuments h))).utf8.length ≤ (Json.dumps document).utf8.length + 300 := by
  have hbody : (signalTransaction.bodyOf (candidatePublication h)
      (candidateDocuments h)).Canonical := signalTransaction.body_canonical ..
  have hencode : Json.dumps document = document.encode := by rw [Json.dumps, h.sorted]
  have hjournal : Json.dumps (.obj
      [("body".toList, signalTransaction.bodyOf (candidatePublication h) (candidateDocuments h)),
        ("sha256".toList, .str (Sha256.ofText (Json.dumps (signalTransaction.bodyOf
          (candidatePublication h) (candidateDocuments h)))))]) =
      (journalOf document (Sha256.ofText (Json.dumps (signalTransaction.bodyOf
        (candidatePublication h) (candidateDocuments h))))).encode := by
    rw [Json.dumps, (journal_canonical hbody).sorted, candidate_body]
    rfl
  have hframe : (journalOf .null []).encode.utf8.length ≤ 200 := by decide +kernel
  have hline : (Text.utf8 ['\n']).length = 1 := rfl
  have hsize := journalOf_size document .null (Sha256.ofText (Json.dumps
    (signalTransaction.bodyOf (candidatePublication h) (candidateDocuments h)))) []
  rw [digest_size, ← hjournal, ← hencode] at hsize
  rw [journalText, Text.utf8_append, List.length_append, hline]
  omega

theorem openSignalStore_large :
    openSignalStore (some (Json.dumps (signalArtifact [largeSignal]))) =
      .ok (⟨some (Json.dumps (signalArtifact [largeSignal])),
        ⟨[largeSignal], List.nodup_singleton _⟩⟩ : SignalStore Unit) := by
  have hcanonical := signalArtifact_canonical [largeSignal]
  have hread : decodeSignalArtifact (Json.dumps (signalArtifact [largeSignal])) =
      some [largeSignal] := by
    refine decodeSignalArtifact_of_loads hcanonical.loads_dumps (List.cons_ne_nil _ _) ?_ ?_
      (dumps_ne_nil hcanonical) largeSignal_size.le
    · intro signal hsignal
      cases List.mem_singleton.mp hsignal
      rfl
    · intro signal hsignal
      cases List.mem_singleton.mp hsignal
      rfl
  rw [openSignalStore, hread]
  rfl

theorem largeArtifact : (signalArtifact [largeSignal]).Canonical := signalArtifact_canonical _

theorem large_accepted :
    signalTransaction.Accepted Unit (candidatePublication largeArtifact)
      (candidateDocuments largeArtifact) := by
  refine ⟨rfl, ?_, ?_⟩
  · refine bind_eq_ok_iff.mpr ⟨(), require_eq_ok_iff.mpr rfl, ?_⟩
    refine bind_eq_ok_iff.mpr ⟨(), require_eq_ok_iff.mpr ⟨rfl, ?_, ?_⟩, ?_⟩
    · rintro _ ⟨⟩
      exact ⟨rfl, by decide⟩
    · rintro _ ⟨⟩
      rfl
    refine bind_eq_ok_iff.mpr ⟨sampleDay, rfl, ?_⟩
    refine bind_eq_ok_iff.mpr ⟨[], rfl, ?_⟩
    refine bind_eq_ok_iff.mpr ⟨(), require_eq_ok_iff.mpr (by decide), ?_⟩
    refine bind_eq_ok_iff.mpr ⟨_, openSignalStore_large, ?_⟩
    refine bind_eq_ok_iff.mpr ⟨[largeSignal], rfl, ?_⟩
    refine bind_eq_ok_iff.mpr ⟨(), require_eq_ok_iff.mpr ⟨List.cons_ne_nil _ _, ?_⟩, rfl⟩
    intro signal hsignal
    cases List.mem_singleton.mp hsignal
    rfl
  · refine (journalText_size largeArtifact).trans ?_
    rw [largeSignal_size]
    decide

theorem large_not_logicalCommit :
    ¬ signalTransaction.LogicalCommit Unit (candidatePublication largeArtifact) fun _ => none := by
  intro h
  obtain ⟨_, hroom⟩ := signalTransaction.room_of_logicalCommit rfl large_accepted h
  exact hroom.signals largeSignal_size

theorem large_logicalCommit_iff :
    signalTransaction.LogicalCommit Unit (candidatePublication largeArtifact) (fun _ => none) ↔
      ∀ documents, signalTransaction.Accepted Unit (candidatePublication largeArtifact) documents →
        signalTransaction.BesideJournal ∧
          signalTransaction.HasRoom
            (signalTransaction.bodyOf (candidatePublication largeArtifact) documents) :=
  signalTransaction.logicalCommit_iff rfl

end Sample

end DailyBundleTransaction

end QuantWorkbench.Runtime
