import ObjectStore.History
import Mathlib.Data.List.Nodup
import Mathlib.Data.List.Perm.Subperm
import Mathlib.Tactic.SplitIfs

/-!
# What a walk visits

A walk is over when its queue is empty. If only finitely many commits load, every walk comes to its
end, whatever the commits name as parents, and it has then visited what can be reached from its
start, each id once.

* `Walk.Yields`: the visits of a walk that comes to its end.
* `Walk.Reaches`: what can be reached by the parents that a walk follows.
* `Walk.Invariant`, `Walk.Invariant.next`: the queue, what was seen and what was visited, and what a
  visit does to them.
* `Walk.Yields.exists_end`: what each visit keeps holds at the end.
* `Walk.exists_yields`: every walk comes to its end, and what it has visited then.
-/

namespace ObjectStore.Walk

variable {load : ObjectId → Except StoreError Commit} {mainline : Bool} {start : ObjectId}
variable {w w' : Walk} {visit : Visit} {done : List ObjectId}

/-! ## The end of a walk -/

/-- The visits of a walk, up to its end. -/
inductive Yields (load : ObjectId → Except StoreError Commit) : Walk → List Visit → Prop
  | ended {w : Walk} (h : w.next load = none) : Yields load w []
  | visit {w w' : Walk} {visit : Visit} {rest : List Visit} (h : w.next load = some (visit, w'))
      (hrest : Yields load w' rest) : Yields load w (visit :: rest)

/-- Asking for so many visits gives the first ones. -/
theorem Yields.visits {vs : List Visit} (h : Yields load w vs) (n : Nat) :
    w.visits load n = vs.take n := by
  induction h generalizing n with
  | ended hnext =>
    cases n with
    | zero => rfl
    | succ n => rw [Walk.visits, hnext, List.take_nil]
  | visit hnext _ ih =>
    cases n with
    | zero => rfl
    | succ n =>
      rw [Walk.visits, hnext, List.take_succ_cons, ← ih n]

/-! ## What is followed -/

/-- The parents that a walk follows from an id: none if the commit does not load. -/
def links (load : ObjectId → Except StoreError Commit) (mainline : Bool) (id : ObjectId) :
    List ObjectId :=
  match load id with
  | .ok commit => if mainline then commit.parents.take 1 else commit.parents
  | .error _ => []

/-- What can be reached from the start by the parents that a walk follows. -/
inductive Reaches (load : ObjectId → Except StoreError Commit) (mainline : Bool)
    (start : ObjectId) : ObjectId → Prop
  | start : Reaches load mainline start start
  | link {id parent : ObjectId} (h : Reaches load mainline start id)
      (hparent : parent ∈ links load mainline id) : Reaches load mainline start parent

/-! ## Discovering -/

/-- The ids that were not seen before, each where it comes first. -/
def fresh (seen : List ObjectId) : List ObjectId → List ObjectId
  | [] => []
  | id :: ids => if id ∈ seen then fresh seen ids else id :: fresh (id :: seen) ids

/-- The ids that are new are those that were not seen. -/
theorem mem_fresh_iff {seen ids : List ObjectId} {id : ObjectId} :
    id ∈ fresh seen ids ↔ id ∈ ids ∧ id ∉ seen := by
  induction ids generalizing seen with
  | nil => simp [fresh]
  | cons a ids ih =>
    rw [fresh]
    split_ifs with ha
    · rw [ih, List.mem_cons]
      constructor
      · exact fun h => ⟨Or.inr h.1, h.2⟩
      · rintro ⟨rfl | h, hseen⟩
        · exact absurd ha hseen
        · exact ⟨h, hseen⟩
    · rw [List.mem_cons, ih, List.mem_cons, List.mem_cons, not_or]
      by_cases hid : id = a
      · simp [hid, ha]
      · simp [hid]

/-- No new id is there twice. -/
theorem nodup_fresh (seen ids : List ObjectId) : (fresh seen ids).Nodup := by
  induction ids generalizing seen with
  | nil => exact List.nodup_nil
  | cons a ids ih =>
    rw [fresh]
    split_ifs
    · exact ih seen
    · refine List.nodup_cons.mpr ⟨?_, ih (a :: seen)⟩
      intro h
      exact (mem_fresh_iff.mp h).2 List.mem_cons_self

/-- Discovering ids puts the fresh ones at the end of the queue. -/
theorem foldl_discover (w : Walk) (ids : List ObjectId) :
    (ids.foldl discover w).mainline = w.mainline ∧
      (ids.foldl discover w).queue = w.queue ++ fresh w.seen ids ∧
      ∀ id, id ∈ (ids.foldl discover w).seen ↔ id ∈ w.seen ∨ id ∈ ids := by
  induction ids generalizing w with
  | nil => simp [fresh]
  | cons a ids ih =>
    rw [List.foldl_cons, fresh]
    obtain ⟨hmainline, hqueue, hseen⟩ := ih (w.discover a)
    rw [hmainline, hqueue]
    unfold discover at hseen ⊢
    split_ifs at hseen ⊢ with ha
    · refine ⟨rfl, rfl, fun id => (hseen id).trans ?_⟩
      rw [List.mem_cons]
      constructor
      · exact fun h => h.imp_right Or.inr
      · rintro (h | rfl | h)
        · exact Or.inl h
        · exact Or.inl ha
        · exact Or.inr h
    · refine ⟨rfl, by simp, fun id => (hseen id).trans ?_⟩
      rw [List.mem_cons, List.mem_cons, or_assoc, or_left_comm]

/-! ## Steps -/

/-- A walk is at its end when nothing is waiting. -/
theorem next_eq_none_iff : w.next load = none ↔ w.queue = [] := by
  unfold next
  split
  · rename_i hqueue
    simp [hqueue]
  · rename_i id queue hqueue
    cases load id <;> simp [hqueue]

/-- A visit is of the first id in the queue. It discovers the links of that id. -/
theorem next_of_cons {id : ObjectId} {queue : List ObjectId} (h : w.queue = id :: queue) :
    w.next load = some (⟨id, load id⟩,
      (links load w.mainline id).foldl discover { w with queue := queue }) := by
  cases hload : load id with
  | error err => simp only [next, links, h, hload, List.foldl_nil]
  | ok commit =>
    simp only [next, links, h, hload]
    rfl

/-! ## The invariant -/

/-- A walk under way, when the ids in `done` have been visited: what was seen is what was visited
and what is in the queue, each id once, all of it can be reached, and nothing that a visited id
links to is missing. -/
structure Invariant (load : ObjectId → Except StoreError Commit) (mainline : Bool)
    (start : ObjectId) (done : List ObjectId) (w : Walk) : Prop where
  mode : w.mainline = mainline
  nodup : (done ++ w.queue).Nodup
  mem_seen_iff : ∀ id, id ∈ w.seen ↔ id ∈ done ++ w.queue
  origin : start ∈ w.seen
  reaches : ∀ id ∈ w.seen, Reaches load mainline start id
  closed : ∀ id ∈ done, ∀ parent ∈ links load mainline id, parent ∈ w.seen

/-- The invariant holds of the start. -/
theorem invariant_start (load : ObjectId → Except StoreError Commit) (mainline : Bool)
    (start : ObjectId) : Invariant load mainline start [] (Walk.start mainline start) where
  mode := rfl
  nodup := List.nodup_singleton start
  mem_seen_iff _ := Iff.rfl
  origin := List.mem_singleton_self start
  reaches id hid := by
    rw [List.mem_singleton.mp hid]
    exact Reaches.start
  closed id hid := absurd hid List.not_mem_nil

/-- A visit keeps the invariant. -/
theorem Invariant.next (h : Invariant load mainline start done w) {id : ObjectId}
    {queue : List ObjectId} (hqueue : w.queue = id :: queue) :
    Invariant load mainline start (done ++ [id])
      ((Walk.links load w.mainline id).foldl discover { w with queue := queue }) := by
  obtain ⟨hmode, hnext, hseen⟩ :=
    foldl_discover { w with queue := queue } (links load w.mainline id)
  have hid : id ∈ w.seen := (h.mem_seen_iff id).mpr (by simp [hqueue])
  have hsplit : done ++ w.queue = (done ++ [id]) ++ queue := by simp [hqueue]
  refine ⟨hmode.trans h.mode, ?_, ?_, ?_, ?_, ?_⟩
  · rw [hnext, ← List.append_assoc, List.nodup_append, ← hsplit]
    refine ⟨h.nodup, nodup_fresh _ _, ?_⟩
    rintro old hold new hnew rfl
    exact (mem_fresh_iff.mp hnew).2 ((h.mem_seen_iff old).mpr hold)
  · intro other
    rw [hseen, hnext, ← List.append_assoc, ← hsplit, List.mem_append, ← h.mem_seen_iff,
      mem_fresh_iff]
    by_cases hother : other ∈ w.seen
    · simp [hother]
    · simp [hother]
  · exact (hseen start).mpr (Or.inl h.origin)
  · intro parent hparent
    obtain hold | hnew := (hseen parent).mp hparent
    · exact h.reaches parent hold
    · exact Reaches.link (h.reaches id hid) (h.mode ▸ hnew)
  · intro visited hvisited parent hparent
    refine (hseen parent).mpr ?_
    rcases List.mem_append.mp hvisited with hdone | hlast
    · exact Or.inl (h.closed visited hdone parent hparent)
    · rw [List.mem_singleton.mp hlast] at hparent
      exact Or.inr (h.mode ▸ hparent)

/-- When the queue is empty, what was visited is what can be reached. -/
theorem Invariant.mem_done_iff (h : Invariant load mainline start done w) (hqueue : w.queue = [])
    {id : ObjectId} : id ∈ done ↔ Reaches load mainline start id := by
  have hseen : ∀ id, id ∈ w.seen ↔ id ∈ done := by
    intro id
    rw [h.mem_seen_iff, hqueue, List.append_nil]
  constructor
  · intro hid
    exact h.reaches id ((hseen id).mpr hid)
  · intro hreaches
    induction hreaches with
    | start => exact (hseen start).mp h.origin
    | link _ hparent ih => exact (hseen _).mp (h.closed _ ih _ hparent)

/-- What every visit of a walk keeps, it still has at its end. -/
theorem Yields.exists_end {P : List ObjectId → Walk → Prop}
    (hstep : ∀ {done : List ObjectId} {w : Walk} {id : ObjectId} {queue : List ObjectId},
      P done w → w.queue = id :: queue →
        P (done ++ [id]) ((links load w.mainline id).foldl discover { w with queue := queue }))
    {vs : List Visit} (h : Yields load w vs) (hP : P done w) :
    ∃ w' : Walk, w'.queue = [] ∧ P (done ++ vs.map Visit.id) w' := by
  induction h generalizing done with
  | ended hnext =>
    refine ⟨_, next_eq_none_iff.mp hnext, ?_⟩
    rwa [List.map_nil, List.append_nil]
  | @visit w w' visit rest hnext _ ih =>
    cases hqueue : w.queue with
    | nil =>
      rw [next_eq_none_iff.mpr hqueue] at hnext
      cases hnext
    | cons id queue =>
      rw [next_of_cons hqueue, Option.some.injEq, Prod.mk.injEq] at hnext
      obtain ⟨rfl, rfl⟩ := hnext
      obtain ⟨last, hlast, hP'⟩ := ih (hstep hP hqueue)
      rw [List.append_assoc] at hP'
      exact ⟨last, hlast, hP'⟩

/-! ## Every walk comes to its end -/

/-- What can be reached is the start and what the commits that load link to. -/
theorem Reaches.mem {loaded : List ObjectId} (hloaded : ∀ id commit, load id = .ok commit →
    id ∈ loaded) {id : ObjectId} (h : Reaches load mainline start id) :
    id ∈ start :: loaded.flatMap (links load mainline) := by
  cases h with
  | start => exact List.mem_cons_self
  | @link id' _ _ hparent =>
    refine List.mem_cons_of_mem _ (List.mem_flatMap.mpr ⟨id', ?_, hparent⟩)
    cases hload : load id' with
    | ok commit => exact hloaded id' commit hload
    | error err =>
      rw [links, hload] at hparent
      exact absurd hparent List.not_mem_nil

/-- What was visited is part of whatever bounds what can be reached. -/
theorem Invariant.length_le {bound : List ObjectId}
    (hbound : ∀ id, Reaches load mainline start id → id ∈ bound)
    (h : Invariant load mainline start done w) : done.length ≤ bound.length := by
  have hdone : done.Nodup := (List.nodup_append.mp h.nodup).1
  have hsub : done ⊆ bound := by
    intro id hid
    exact hbound id (h.reaches id ((h.mem_seen_iff id).mpr (List.mem_append_left _ hid)))
  exact (List.subperm_of_subset hdone hsub).length_le

/-- A walk comes to its end from wherever it is, if there is a bound on what can be reached. -/
theorem Invariant.exists_yields {bound : List ObjectId}
    (hbound : ∀ id, Reaches load mainline start id → id ∈ bound)
    (h : Invariant load mainline start done w) :
    ∃ vs, Yields load w vs ∧ (∀ visit ∈ vs, visit.commit = load visit.id) ∧
      (done ++ vs.map Visit.id).Nodup ∧
      ∀ id, id ∈ done ++ vs.map Visit.id ↔ Reaches load mainline start id := by
  -- Each visit leaves fewer ids that are still to be visited.
  obtain ⟨left, hleft⟩ : ∃ left, bound.length < done.length + left :=
    ⟨bound.length + 1, by omega⟩
  induction left generalizing done w with
  | zero =>
    have := h.length_le hbound
    omega
  | succ left ih =>
    match hqueue : w.queue with
    | [] =>
      refine ⟨[], Yields.ended (next_eq_none_iff.mpr hqueue), by simp, ?_, ?_⟩
      · have hnodup := h.nodup
        rwa [hqueue] at hnodup
      · intro id
        rw [List.map_nil, List.append_nil]
        exact h.mem_done_iff hqueue
    | id :: queue =>
      obtain ⟨vs, hyields, hcommits, hnodup, hmem⟩ := ih (h.next hqueue) (by
        rw [List.length_append, List.length_singleton]
        omega)
      rw [List.append_assoc] at hnodup
      refine ⟨⟨id, load id⟩ :: vs, Yields.visit (next_of_cons hqueue) hyields, ?_, hnodup, ?_⟩
      · intro visit hvisit
        rcases List.mem_cons.mp hvisit with rfl | hrest
        · rfl
        · exact hcommits visit hrest
      · intro other
        rw [← hmem, List.append_assoc]
        rfl

/-- A walk comes to its end if only finitely many commits load. It has then visited what can be
reached from its start, each id once, with what came of loading it. -/
theorem exists_yields {loaded : List ObjectId}
    (hloaded : ∀ id commit, load id = .ok commit → id ∈ loaded) :
    ∃ vs, (Walk.start mainline start).Yields load vs ∧
      (∀ visit ∈ vs, visit.commit = load visit.id) ∧ (vs.map Visit.id).Nodup ∧
      ∀ id, id ∈ vs.map Visit.id ↔ Reaches load mainline start id :=
  (invariant_start load mainline start).exists_yields fun _ h => h.mem hloaded

end ObjectStore.Walk
