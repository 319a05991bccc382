import ObjectStore.Command.Show
import ObjectStore.Proofs.History.Ancestry

/-!
# What a log shows

A log goes along a walk and shows its commits up to the first id whose commit cannot be loaded. The
walk itself goes on after such an id, so a log may end before its walk does.

* `Log.shownLines`: the lines of a log of some commits, without their line feeds, and
  `Log.render_eq`: these are the lines that are written when colours are off.
* `Log.Shows`: what comes of a log of the visits of a walk.
* `Visit.untilFault_take`: looking at so many visits is enough, and
  `Log.length_untilFault_le`: how many commits a log can show.
* `Command.log_shows`: the log of a repository is that of the whole walk.
-/

namespace ObjectStore

namespace Log

/-! ## The lines of a log -/

/-- The lines of a message. -/
def messageLines (commit : Commit) : List String :=
  (Text.textLines commit.message.toList).map String.ofList

/-- The one line that shows a commit: seven digits of its id and the first line of its message. -/
def shortLine (id : ObjectId) (commit : Commit) : String :=
  String.ofList (id.hex.take 7) ++ " " ++ (messageLines commit).headD ""

/-- The line that names the parents of a commit, if it has two or more. -/
def mergeLines (commit : Commit) : List String :=
  if 2 ≤ commit.parents.length then
    ["Merge: " ++ String.intercalate " " (commit.parents.map ObjectId.short)]
  else []

/-- The lines that show a commit at length. -/
def fullLines (id : ObjectId) (commit : Commit) : List String :=
  ["commit " ++ id.text] ++ mergeLines commit
    ++ ["Author: " ++ commit.author.identity, "Date:   " ++ commit.author.time.readable, ""]
    ++ (messageLines commit).map ("    " ++ ·)

/-- The lines that show some commits: one for each, or a block for each and one blank line between
two blocks. -/
def shownLines (oneline : Bool) (commits : List (ObjectId × Commit)) : List String :=
  if oneline then commits.map fun c => shortLine c.1 c.2
  else List.intercalate [""] (commits.map fun c => fullLines c.1 c.2)

/-- The text of some lines, each with a line feed at its end. -/
def textOf (lines : List String) : String := String.join (lines.map (· ++ "\n"))

/-- No lines make no text. -/
@[simp] theorem textOf_nil : textOf [] = "" := rfl

/-- Lines in a row are written in a row. -/
@[simp] theorem textOf_append (front back : List String) :
    textOf (front ++ back) = textOf front ++ textOf back := by
  simp [textOf]

/-- Every line ends in a line feed. -/
@[simp] theorem textOf_cons (line : String) (lines : List String) :
    textOf (line :: lines) = line ++ "\n" ++ textOf lines := by
  simp [textOf]

/-- The short form of a commit is one line. -/
theorem line_eq (id : ObjectId) (commit : Commit) :
    line false id commit = textOf [shortLine id commit] := by
  have hfirst : commit.short = (messageLines commit).headD "" := by
    unfold Commit.short messageLines
    cases Text.textLines commit.message.toList <;> rfl
  simp [line, shortLine, Colour.paint, ObjectId.short, hfirst]

/-- The line with the parents is there for merges only. -/
theorem textOf_mergeLines (commit : Commit) :
    textOf (mergeLines commit) = if commit.isMerge then
      "Merge: " ++ String.intercalate " " (commit.parents.map ObjectId.short) ++ "\n" else "" := by
  have htwo : commit.isMerge = true ↔ 2 ≤ commit.parents.length := by
    simp [Commit.isMerge, Nat.succ_le_iff]
  unfold mergeLines
  split_ifs with hlength hmerge hmerge
  · simp
  · exact absurd (htwo.mpr hlength) hmerge
  · exact absurd (htwo.mp hmerge) hlength
  · rfl

/-- The lines of a message are indented, each one. -/
theorem textOf_messageLines (commit : Commit) :
    textOf ((messageLines commit).map ("    " ++ ·)) =
      String.join ((Text.textLines commit.message.toList).map fun l =>
        "    " ++ String.ofList l ++ "\n") := by
  simp [textOf, messageLines, Function.comp_def]

/-- The full form of a commit is its lines. -/
theorem block_eq (id : ObjectId) (commit : Commit) :
    block false id commit = textOf (fullLines id commit) := by
  have hblank : "\n\n" = "\n" ++ "\n" := rfl
  simp only [block, fullLines, Colour.paint, Bool.false_eq_true, if_false, hblank, textOf_append,
    textOf_cons, textOf_nil, textOf_mergeLines, textOf_messageLines, String.append_assoc,
    String.empty_append, String.append_empty]

/-- A blank line between blocks of lines is a line feed between their texts. -/
theorem textOf_intercalate (blocks : List (List String)) :
    textOf (List.intercalate [""] blocks) = String.intercalate "\n" (blocks.map textOf) := by
  induction blocks with
  | nil => rfl
  | cons block blocks ih =>
    cases blocks with
    | nil => simp
    | cons next blocks =>
      rw [List.intercalate_cons_of_ne_nil (by simp), textOf_append, textOf_append, ih]
      simp [String.intercalate_cons_cons]

/-- With colours off, the log of some commits is the text of their lines. -/
theorem render_eq (oneline : Bool) (commits : List (ObjectId × Commit)) :
    render false oneline commits = textOf (shownLines oneline commits) := by
  unfold render shownLines
  cases oneline with
  | true =>
    simp [textOf, line_eq, Function.comp_def]
  | false =>
    simp [textOf_intercalate, block_eq, Function.comp_def]

end Log

/-! ## The commits before the first fault -/

namespace Visit

variable {visit : Visit} {vs : List Visit} {commit : Commit} {err : StoreError}

/-- The visit of a commit that loads. -/
def loaded (c : ObjectId × Commit) : Visit := ⟨c.1, .ok c.2⟩

/-- A commit that loads is shown, and so is what can be shown after it. -/
theorem untilFault_cons_of_ok (h : visit.commit = .ok commit) (rest : List Visit) :
    untilFault (visit :: rest) =
      ((visit.id, commit) :: (untilFault rest).1, (untilFault rest).2) := by
  rw [untilFault, h]

/-- A commit that does not load ends what is shown. -/
theorem untilFault_cons_of_error (h : visit.commit = .error err) (rest : List Visit) :
    untilFault (visit :: rest) = ([], some err) := by
  rw [untilFault, h]

/-- All commits load, or a visit with an error comes right after those that are taken. -/
theorem untilFault_cases (vs : List Visit) :
    (vs = (untilFault vs).1.map loaded ∧ (untilFault vs).2 = none) ∨
      ∃ id err rest, vs = (untilFault vs).1.map loaded ++ ⟨id, .error err⟩ :: rest ∧
        (untilFault vs).2 = some err := by
  induction vs with
  | nil => exact Or.inl ⟨rfl, rfl⟩
  | cons visit vs ih =>
    obtain ⟨id, result⟩ := visit
    cases result with
    | error err =>
      rw [untilFault_cons_of_error rfl]
      exact Or.inr ⟨id, err, vs, rfl, rfl⟩
    | ok commit =>
      rw [untilFault_cons_of_ok rfl]
      refine ih.imp ?_ ?_
      · rintro ⟨hvs, hnone⟩
        exact ⟨congrArg (⟨id, .ok commit⟩ :: ·) hvs, hnone⟩
      · rintro ⟨id', err, rest, hvs, hsome⟩
        exact ⟨id', err, rest, congrArg (⟨id, .ok commit⟩ :: ·) hvs, hsome⟩

/-- The commits that are shown are a front of the walk. -/
theorem untilFault_isPrefix (vs : List Visit) : (untilFault vs).1.map loaded <+: vs := by
  obtain ⟨hvs, -⟩ | ⟨id, err, rest, hvs, -⟩ := untilFault_cases vs
  · exact ⟨[], by rw [List.append_nil, ← hvs]⟩
  · exact ⟨_, hvs.symm⟩

/-- It is enough to look at one visit more than there are commits to take. -/
theorem untilFault_take {n : Nat} (h : (untilFault vs).1.length < n) :
    untilFault (vs.take n) = untilFault vs := by
  induction vs generalizing n with
  | nil => rw [List.take_nil]
  | cons visit vs ih =>
    obtain ⟨n, rfl⟩ := Nat.exists_eq_succ_of_ne_zero (Nat.ne_zero_of_lt h)
    rw [List.take_succ_cons]
    cases hcommit : visit.commit with
    | error err => rw [untilFault_cons_of_error hcommit, untilFault_cons_of_error hcommit]
    | ok commit =>
      rw [untilFault_cons_of_ok hcommit, List.length_cons] at h
      rw [untilFault_cons_of_ok hcommit, untilFault_cons_of_ok hcommit,
        ih (Nat.lt_of_succ_lt_succ h)]

/-- Where no id is visited twice, there are not more commits to take than there are files. -/
theorem length_untilFault_le {db : Database} {t : FileTree} (hnodup : (vs.map Visit.id).Nodup)
    (hcommits : ∀ visit ∈ vs, visit.commit = db.parseCommit t visit.id) :
    (untilFault vs).1.length ≤ t.entries.length := by
  have hfront := untilFault_isPrefix vs
  have hids : ((untilFault vs).1.map loaded).map Visit.id = (untilFault vs).1.map Prod.fst := by
    rw [List.map_map]
    rfl
  have htaken : ((untilFault vs).1.map Prod.fst).Nodup := by
    rw [← hids]
    exact hnodup.sublist (hfront.sublist.map Visit.id)
  have hfiles : (untilFault vs).1.map Prod.fst ⊆ Database.fileIds t := by
    intro id hid
    obtain ⟨⟨id, commit⟩, htake, rfl⟩ := List.mem_map.mp hid
    have hload := hcommits _ (hfront.subset (List.mem_map_of_mem htake))
    obtain ⟨content, hfile⟩ := Database.objectFile_of_parseCommit hload.symm
    exact Database.mem_fileIds hfile
  calc (untilFault vs).1.length
      = ((untilFault vs).1.map Prod.fst).length := List.length_map _ |>.symm
    _ ≤ (Database.fileIds t).length := htaken.length_le_of_subset hfiles
    _ ≤ t.entries.length := Database.length_fileIds_le t

end Visit

/-! ## The log of a walk -/

namespace Log

variable {oneline : Bool} {vs : List Visit} {outcome : Outcome}

/-- What comes of a log of the visits of a walk: it shows all of their commits, or those before the
first visit with an error, and then it reports that error. -/
inductive Shows (oneline : Bool) : List Visit → Outcome → Prop
  | all (commits : List (ObjectId × Commit)) :
      Shows oneline (commits.map Visit.loaded)
        ⟨Bytes.ofString (textOf (shownLines oneline commits)), none⟩
  | upTo (commits : List (ObjectId × Commit)) (id : ObjectId) (err : StoreError)
      (rest : List Visit) :
      Shows oneline (commits.map Visit.loaded ++ ⟨id, .error err⟩ :: rest)
        ⟨Bytes.ofString (textOf (shownLines oneline commits)), some (.store err)⟩

/-- The log is the front of the walk up to the first fault, and then that fault. -/
theorem shows_untilFault (oneline : Bool) (vs : List Visit) :
    Shows oneline vs ⟨Bytes.ofString (render false oneline (Visit.untilFault vs).1),
      (Visit.untilFault vs).2.map .store⟩ := by
  rw [render_eq]
  obtain ⟨hvs, hnone⟩ | ⟨id, err, rest, hvs, hsome⟩ := Visit.untilFault_cases vs
  · have hshows : Shows oneline _ _ := Shows.all (Visit.untilFault vs).1
    rw [← hvs] at hshows
    rw [hnone]
    exact hshows
  · have hshows : Shows oneline _ _ := Shows.upTo (Visit.untilFault vs).1 id err rest
    rw [← hvs] at hshows
    rw [hsome]
    exact hshows

/-- A log fails exactly if there is an error among the visits. -/
theorem Shows.error_iff (h : Shows oneline vs outcome) :
    outcome.error ≠ none ↔ ∃ visit ∈ vs, ∃ err, visit.commit = .error err := by
  cases h with
  | all commits =>
    refine iff_of_false (fun herror => herror rfl) ?_
    rintro ⟨visit, hvisit, err, herr⟩
    obtain ⟨c, -, rfl⟩ := List.mem_map.mp hvisit
    cases herr
  | upTo commits id err rest =>
    refine iff_of_true nofun ⟨⟨id, .error err⟩, ?_, err, rfl⟩
    exact List.mem_append_right _ List.mem_cons_self

end Log

namespace Command

/-- The log of a repository whose start is known is the log of the whole walk from there, as long
as that may be, and changes nothing. It fails exactly if there is an id in the walk whose commit
cannot be loaded, for the reason that the first of them gives. -/
theorem log_shows {repo : Repository} {revision : Option String} {t : FileTree} {start : ObjectId}
    (h : logStart repo revision t = .ok start) (oneline mainline : Bool) :
    ∃ vs : List Visit,
      (Walk.start mainline start).Yields (repo.database.parseCommit t) vs ∧
      (∀ limit, repo.visits t mainline start limit = vs.take limit) ∧
      Log.Shows oneline vs (log repo revision oneline mainline false t).1 ∧
      ((log repo revision oneline mainline false t).1.error ≠ none ↔
        ∃ visit ∈ vs, ∃ err, visit.commit = .error err) ∧
      (log repo revision oneline mainline false t).2 = t := by
  have hfiles : ∀ id commit, repo.database.parseCommit t id = .ok commit →
      id ∈ Database.fileIds t := by
    intro id commit hload
    obtain ⟨content, hfile⟩ := Database.objectFile_of_parseCommit hload
    exact Database.mem_fileIds hfile
  obtain ⟨vs, hyields, hcommits, hnodup, -⟩ :
      ∃ vs, (Walk.start mainline start).Yields (repo.database.parseCommit t) vs ∧ _ :=
    Walk.exists_yields hfiles
  -- The log looks at one visit more than there are files, and takes fewer commits than that.
  have hall : Visit.untilFault (repo.visits t mainline start (t.entries.length + 1))
      = Visit.untilFault vs := by
    rw [Repository.visits, hyields.visits]
    exact Visit.untilFault_take (Nat.lt_succ_of_le (Visit.length_untilFault_le hnodup hcommits))
  have hlog : log repo revision oneline mainline false t =
      (⟨Bytes.ofString (Log.render false oneline (Visit.untilFault vs).1),
        (Visit.untilFault vs).2.map .store⟩, t) := by
    unfold log
    rw [h, ← hall]
  have hshows := Log.shows_untilFault oneline vs
  rw [hlog]
  exact ⟨vs, hyields, hyields.visits, hshows, hshows.error_iff, rfl⟩

/-- A branch whose commit names a parent that is not there: the commit is shown, and then the log
fails. -/
theorem log_shows_missing_parent :
    let repo : Repository := ⟨⟨"/"⟩, Layout.standard⟩
    let missing : ObjectId := ⟨List.replicate 20 1, rfl⟩
    let payload := Bytes.ofString ("tree " ++ missing.text ++ "\nparent " ++ missing.text
      ++ "\nauthor A <a> 0 +0000\ncommitter A <a> 0 +0000\n\nTop\n\nmore\n")
    let id := Canonical.idOf "commit" payload
    let t := (repo.setBranch 3 "master" id
      (repo.database.storeRaw 2 "commit" payload (repo.create 1 FileTree.empty).2).2).2
    logStart repo none t = .ok id ∧
      (∃ vs, (Walk.start false id).Yields (repo.database.parseCommit t) vs ∧
        Log.Shows false vs (log repo none false false false t).1 ∧
        ∃ visit ∈ vs, ∃ err, visit.commit = .error err) ∧
      (log repo none false false false t).1.output = Bytes.ofString ("commit " ++ id.text
        ++ "\nAuthor: A <a>\nDate:   Thu Jan 1 00:00:00 1970 +0000\n\n    Top\n    \n    more\n") ∧
      (log repo none false false false t).1.error = some (.store (.objectNotFound missing)) := by
  intro repo missing payload id t
  obtain ⟨hstart, houtput, herror⟩ : logStart repo none t = .ok id ∧
      (log repo none false false false t).1.output = Bytes.ofString ("commit " ++ id.text
        ++ "\nAuthor: A <a>\nDate:   Thu Jan 1 00:00:00 1970 +0000\n\n    Top\n    \n    more\n") ∧
      (log repo none false false false t).1.error = some (.store (.objectNotFound missing)) := by
    decide +kernel
  obtain ⟨vs, hyields, -, hshows, hfails, -⟩ := log_shows hstart false false
  have hfault := hfails.mp (by rw [herror]; exact Option.some_ne_none _)
  exact ⟨hstart, ⟨vs, hyields, hshows, hfault⟩, houtput, herror⟩

end Command

end ObjectStore
