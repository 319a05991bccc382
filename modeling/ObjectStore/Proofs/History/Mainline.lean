import ObjectStore.Proofs.History.Ancestry
import Mathlib.Data.List.Chain

/-!
# The mainline of a commit

A walk along the mainline goes from each commit to its first parent. There is never more than one
id in its queue, so it visits one chain of ids, and nothing else that a commit names.

* `Walk.IsMainline`: the chain, stated without a walk, and `Walk.IsMainline.eq`: there is only one.
* `Walk.OnMainline.next`: what a visit does to the chain.
* `Walk.visits_mainline`: a walk along the mainline through a database visits that chain, which is
  part of what a walk along all parents visits.
-/

namespace ObjectStore.Walk

variable {load : ObjectId → Except StoreError Commit} {start : ObjectId}
variable {w : Walk} {done ids ids' : List ObjectId} {id child parent parent' last : ObjectId}

/-! ## First parents -/

/-- The commit of the first id loads, and the second id is its first parent. -/
def FirstParent (load : ObjectId → Except StoreError Commit) (child parent : ObjectId) : Prop :=
  ∃ commit, load child = .ok commit ∧ commit.parents.head? = some parent

/-- No commit has two first parents. -/
theorem FirstParent.unique (h : FirstParent load child parent)
    (h' : FirstParent load child parent') : parent = parent' := by
  obtain ⟨commit, hload, hhead⟩ := h
  obtain ⟨commit', hload', hhead'⟩ := h'
  rw [hload, Except.ok.injEq] at hload'
  rwa [← hload', hhead, Option.some.injEq] at hhead'

/-- What a walk along the mainline follows from an id is its first parent. -/
theorem links_eq_nil_or (load : ObjectId → Except StoreError Commit) (child : ObjectId) :
    (links load true child = [] ∧ ∀ parent, ¬ FirstParent load child parent) ∨
      ∃ parent, links load true child = [parent] ∧ FirstParent load child parent := by
  cases hload : load child with
  | error err =>
    refine Or.inl ⟨by rw [links, hload], ?_⟩
    rintro parent ⟨commit, hok, -⟩
    rw [hload] at hok
    cases hok
  | ok commit =>
    cases hparents : commit.parents with
    | nil =>
      refine Or.inl ⟨by simp [links, hload, hparents], ?_⟩
      rintro parent ⟨commit', hok, hhead⟩
      rw [hload, Except.ok.injEq] at hok
      rw [← hok, hparents] at hhead
      cases hhead
    | cons parent rest =>
      refine Or.inr ⟨parent, by simp [links, hload, hparents], commit, hload, ?_⟩
      rw [hparents, List.head?_cons]

/-- On the mainline, the link of a commit is its first parent. -/
theorem mem_links_mainline_iff :
    parent ∈ links load true child ↔ FirstParent load child parent := by
  obtain ⟨hlinks, hnone⟩ | ⟨first, hlinks, hfirst⟩ := links_eq_nil_or load child
  · rw [hlinks]
    exact ⟨fun h => absurd h List.not_mem_nil, fun h => absurd h (hnone parent)⟩
  · rw [hlinks, List.mem_singleton]
    exact ⟨fun h => h ▸ hfirst, fun h => h.unique hfirst⟩

/-- What can be reached along the mainline can be reached along all parents. -/
theorem Reaches.of_mainline (h : Reaches load true start id) : Reaches load false start id := by
  induction h with
  | start => exact Reaches.start
  | link _ hparent ih =>
    obtain ⟨commit, hload, hhead⟩ := mem_links_mainline_iff.mp hparent
    exact Reaches.link ih (mem_links_iff.mpr ⟨commit, hload, List.mem_of_mem_head? hhead⟩)

/-! ## The chain of first parents -/

/-- Why a chain of first parents ends: the last commit does not load, it has no parents, or its
first parent is in the chain already. -/
inductive Ends (load : ObjectId → Except StoreError Commit) (ids : List ObjectId)
    (last : ObjectId) : Prop
  | fault {err : StoreError} (h : load last = .error err)
  | root {commit : Commit} (h : load last = .ok commit) (hparents : commit.parents = [])
  | again {parent : ObjectId} (h : FirstParent load last parent) (hseen : parent ∈ ids)

/-- A mainline ends where no first parent is new. -/
theorem ends_iff : Ends load ids last ↔ ∀ parent, FirstParent load last parent → parent ∈ ids := by
  constructor
  · rintro (⟨hfault⟩ | ⟨hload, hparents⟩ | ⟨hfirst, hseen⟩) parent hparent
    · obtain ⟨commit, hok, -⟩ := hparent
      rw [hfault] at hok
      cases hok
    · obtain ⟨commit, hok, hhead⟩ := hparent
      rw [hload, Except.ok.injEq] at hok
      rw [← hok, hparents] at hhead
      cases hhead
    · rwa [hparent.unique hfirst]
  · intro h
    cases hload : load last with
    | error err => exact Ends.fault hload
    | ok commit =>
      cases hparents : commit.parents with
      | nil => exact Ends.root hload hparents
      | cons parent rest =>
        have hfirst : FirstParent load last parent :=
          ⟨commit, hload, by rw [hparents, List.head?_cons]⟩
        exact Ends.again hfirst (h parent hfirst)

/-- The mainline from an id: the id, its first parent, the first parent of that and so on, each id
once, as far as this goes. -/
structure IsMainline (load : ObjectId → Except StoreError Commit) (start : ObjectId)
    (ids : List ObjectId) : Prop where
  head : ids.head? = some start
  chain : ids.IsChain (FirstParent load)
  nodup : ids.Nodup
  ended : ∀ last ∈ ids.getLast?, Ends load ids last

/-- Of two chains from one id, one goes on where the other ends. -/
theorem prefix_or_prefix_of_isChain (h : (id :: ids).IsChain (FirstParent load))
    (h' : (id :: ids').IsChain (FirstParent load)) :
    id :: ids <+: id :: ids' ∨ id :: ids' <+: id :: ids := by
  induction ids generalizing id ids' with
  | nil => exact Or.inl ((List.prefix_cons_inj id).mpr List.nil_prefix)
  | cons parent ids ih =>
    cases ids' with
    | nil => exact Or.inr ((List.prefix_cons_inj id).mpr List.nil_prefix)
    | cons parent' ids' =>
      obtain ⟨hfirst, htail⟩ := List.isChain_cons_cons.mp h
      obtain ⟨hfirst', htail'⟩ := List.isChain_cons_cons.mp h'
      obtain rfl := hfirst.unique hfirst'
      exact (ih htail htail').imp (List.prefix_cons_inj id).mpr (List.prefix_cons_inj id).mpr

/-- A mainline does not go on where another one ends: its next id would come twice. -/
theorem IsMainline.eq_of_goesOn (h : IsMainline load start ids) (h' : IsMainline load start ids')
    (hgoesOn : ids <+: ids') : ids = ids' := by
  obtain ⟨back, rfl⟩ := hgoesOn
  cases back with
  | nil => rw [List.append_nil]
  | cons next back =>
    have hne : ids ≠ [] := List.ne_nil_of_mem (List.mem_of_mem_head? h.head)
    have hlast := List.getLast?_eq_some_getLast hne
    have hfirst := (List.isChain_append.mp h'.chain).2.2 _ hlast next rfl
    have hseen := ends_iff.mp (h.ended _ hlast) next hfirst
    exact absurd rfl ((List.nodup_append.mp h'.nodup).2.2 next hseen next List.mem_cons_self)

/-- There is one mainline from an id. -/
theorem IsMainline.eq (h : IsMainline load start ids) (h' : IsMainline load start ids') :
    ids = ids' := by
  obtain ⟨rest, rfl⟩ := List.head?_eq_some_iff.mp h.head
  obtain ⟨rest', rfl⟩ := List.head?_eq_some_iff.mp h'.head
  rcases prefix_or_prefix_of_isChain h.chain h'.chain with hgoesOn | hgoesOn
  · exact h.eq_of_goesOn h' hgoesOn
  · exact (h'.eq_of_goesOn h hgoesOn).symm

/-! ## The walk along the mainline -/

/-- A walk along the mainline under way: what was visited and the queue are a chain of first
parents, and at most one id is in the queue. -/
structure OnMainline (load : ObjectId → Except StoreError Commit) (start : ObjectId)
    (done : List ObjectId) (w : Walk) : Prop where
  invariant : Invariant load true start done w
  head : (done ++ w.queue).head? = some start
  chain : (done ++ w.queue).IsChain (FirstParent load)
  single : w.queue.length ≤ 1

/-- The walk starts on the mainline. -/
theorem onMainline_start (load : ObjectId → Except StoreError Commit) (start : ObjectId) :
    OnMainline load start [] (Walk.start true start) where
  invariant := invariant_start load true start
  head := rfl
  chain := List.isChain_singleton start
  single := Nat.le_refl 1

/-- What is fresh among the links of an id is nothing or its first parent. -/
theorem fresh_links_eq_nil_or (seen : List ObjectId) (child : ObjectId) :
    fresh seen (links load true child) = [] ∨
      ∃ parent, fresh seen (links load true child) = [parent] ∧ FirstParent load child parent := by
  obtain ⟨hlinks, -⟩ | ⟨parent, hlinks, hparent⟩ := links_eq_nil_or load child
  · exact Or.inl (by rw [hlinks, fresh])
  · rw [hlinks, fresh, fresh, fresh]
    split_ifs
    · exact Or.inl rfl
    · exact Or.inr ⟨parent, rfl, hparent⟩

/-- A visit ends the chain or adds the first parent of what was visited. -/
theorem OnMainline.next (h : OnMainline load start done w) {queue : List ObjectId}
    (hqueue : w.queue = id :: queue) :
    OnMainline load start (done ++ [id])
      ((links load w.mainline id).foldl discover { w with queue := queue }) := by
  have hinvariant := h.invariant.next hqueue
  have hhead := h.head
  have hchain := h.chain
  have hsingle := h.single
  obtain ⟨-, hnext, -⟩ := foldl_discover { w with queue := queue } (links load w.mainline id)
  rw [hqueue] at hhead hchain hsingle
  obtain rfl : queue = [] :=
    List.length_eq_zero_iff.mp (Nat.le_zero.mp (Nat.le_of_succ_le_succ hsingle))
  rw [List.nil_append, h.invariant.mode] at hnext
  rw [h.invariant.mode] at hinvariant ⊢
  obtain hnone | ⟨parent, hone, hparent⟩ := fresh_links_eq_nil_or w.seen id
  · rw [hnone] at hnext
    refine ⟨hinvariant, ?_, ?_, ?_⟩
    · rwa [hnext, List.append_nil]
    · rwa [hnext, List.append_nil]
    · rw [hnext]
      exact Nat.zero_le 1
  · rw [hone] at hnext
    refine ⟨hinvariant, ?_, ?_, ?_⟩
    · rw [hnext, List.head?_append, hhead, Option.some_or]
    · rw [hnext]
      refine hchain.append (List.isChain_singleton parent) ?_
      intro last hlast next hnext'
      obtain rfl : id = last := by simpa using hlast
      obtain rfl : parent = next := by simpa using hnext'
      exact hparent
    · rw [hnext]
      exact Nat.le_refl 1

/-- A walk along the mainline that comes to its end has visited the mainline. -/
theorem Yields.isMainline {vs : List Visit} (h : (Walk.start true start).Yields load vs)
    (hmem : ∀ id, id ∈ vs.map Visit.id ↔ Reaches load true start id) :
    IsMainline load start (vs.map Visit.id) := by
  obtain ⟨w, hqueue, hend⟩ := h.exists_end (fun hdone hqueue => hdone.next hqueue)
    (onMainline_start load start)
  have hhead := hend.head
  have hchain := hend.chain
  have hnodup := hend.invariant.nodup
  rw [hqueue, List.append_nil, List.nil_append] at hhead hchain hnodup
  refine ⟨hhead, hchain, hnodup, ?_⟩
  intro last hlast
  refine ends_iff.mpr fun parent hparent => (hmem parent).mpr ?_
  exact Reaches.link ((hmem last).mp (List.mem_of_getLast? hlast))
    (mem_links_mainline_iff.mpr hparent)

/-- A walk along the mainline through a database visits the mainline of its start and nothing else,
whatever the files of the database hold, and each id of it is visited along all parents too. -/
theorem visits_mainline (db : Database) (t : FileTree) (start : ObjectId) :
    ∃ vs full : List Visit,
      (Walk.start true start).Yields (db.parseCommit t) vs ∧
      (∀ limit, (Walk.start true start).visits (db.parseCommit t) limit = vs.take limit) ∧
      (∀ visit ∈ vs, visit.commit = db.parseCommit t visit.id) ∧
      (∀ ids, IsMainline (db.parseCommit t) start ids ↔ ids = vs.map Visit.id) ∧
      (Walk.start false start).Yields (db.parseCommit t) full ∧
      ∀ id ∈ vs.map Visit.id, id ∈ full.map Visit.id := by
  obtain ⟨loaded, hloaded⟩ := db.exists_commits t
  obtain ⟨vs, hyields, hcommits, -, hmem⟩ :
      ∃ vs, (Walk.start true start).Yields (db.parseCommit t) vs ∧ _ := exists_yields hloaded
  obtain ⟨full, hfull, -, -, hmemFull⟩ :
      ∃ vs, (Walk.start false start).Yields (db.parseCommit t) vs ∧ _ := exists_yields hloaded
  have hmainline := hyields.isMainline hmem
  refine ⟨vs, full, hyields, hyields.visits, hcommits, ?_, hfull, ?_⟩
  · intro ids
    constructor
    · intro h
      exact h.eq hmainline
    · rintro rfl
      exact hmainline
  · intro id hid
    exact (hmemFull id).mpr ((hmem id).mp hid).of_mainline

end ObjectStore.Walk
