import ObjectStore.Proofs.History.Ancestry
import Mathlib.Data.Prod.Lex
import Mathlib.Order.Lattice.Nat

/-!
# The order of a walk

A walk visits the nearer ids first. What it discovers, it visits in the order in which the visited
commits name it: by the first visited commit that does, and then by where that one names it first.

* `Walk.distance`: the least number of links from the start to an id.
* `Walk.Yields.ids_eq`: the ids of a walk, as an equation that determines them.
* `Walk.naming`: where the visited commits first name an id.
* `Walk.IsBreadthFirst`: the order of a walk, stated without its queue.
* `Walk.visits_breadth_first`: every walk through a database has that order.
-/

namespace ObjectStore.Walk

variable {load : ObjectId → Except StoreError Commit} {mainline : Bool} {start : ObjectId}
variable {w : Walk} {done ids : List ObjectId} {id parent : ObjectId} {n : ℕ}

/-! ## Distances -/

/-- An id can be reached from the start by this number of links. -/
inductive ReachesIn (load : ObjectId → Except StoreError Commit) (mainline : Bool)
    (start : ObjectId) : ℕ → ObjectId → Prop
  | start : ReachesIn load mainline start 0 start
  | link {n : ℕ} {id parent : ObjectId} (h : ReachesIn load mainline start n id)
      (hparent : parent ∈ links load mainline id) : ReachesIn load mainline start (n + 1) parent

/-- What is reached in some number of steps is reached. -/
theorem ReachesIn.reaches (h : ReachesIn load mainline start n id) :
    Reaches load mainline start id := by
  induction h with
  | start => exact Reaches.start
  | link _ hparent ih => exact Reaches.link ih hparent

/-- What is reached is reached in some number of steps. -/
theorem Reaches.exists_reachesIn (h : Reaches load mainline start id) :
    ∃ n, ReachesIn load mainline start n id := by
  induction h with
  | start => exact ⟨0, ReachesIn.start⟩
  | link _ hparent ih =>
    obtain ⟨n, hn⟩ := ih
    exact ⟨n + 1, ReachesIn.link hn hparent⟩

/-- The least number of links from the start to an id. It means nothing for an id that cannot be
reached. -/
noncomputable def distance (load : ObjectId → Except StoreError Commit) (mainline : Bool)
    (start id : ObjectId) : ℕ :=
  sInf {n | ReachesIn load mainline start n id}

/-- The distance is the least number of steps. -/
theorem distance_isLeast (h : Reaches load mainline start id) :
    IsLeast {n | ReachesIn load mainline start n id} (distance load mainline start id) :=
  ⟨Nat.sInf_mem h.exists_reachesIn, fun _ hn => Nat.sInf_le hn⟩

/-- No way is shorter than the distance. -/
theorem ReachesIn.distance_le (h : ReachesIn load mainline start n id) :
    distance load mainline start id ≤ n :=
  (distance_isLeast h.reaches).2 h

/-- The start is no step away from itself. -/
theorem distance_start : distance load mainline start start = 0 :=
  Nat.le_zero.mp ReachesIn.start.distance_le

/-- One link leads at most one further away. -/
theorem distance_le_of_link (h : Reaches load mainline start id)
    (hparent : parent ∈ links load mainline id) :
    distance load mainline start parent ≤ distance load mainline start id + 1 :=
  (ReachesIn.link (distance_isLeast h).1 hparent).distance_le

/-- The last link of a shortest way to an id comes from an id that is nearer by one. -/
theorem exists_link (h : Reaches load mainline start id) (hne : id ≠ start) :
    ∃ child, Reaches load mainline start child ∧ id ∈ links load mainline child ∧
      distance load mainline start id = distance load mainline start child + 1 := by
  have hleast := (distance_isLeast h).1
  generalize hn : distance load mainline start id = n at hleast
  cases hleast with
  | start => exact absurd rfl hne
  | @link n child _ hchild hparent =>
    refine ⟨child, hchild.reaches, hparent, ?_⟩
    have hle := hchild.distance_le
    have hge := distance_le_of_link hchild.reaches hparent
    omega

/-! ## Fresh ids -/

/-- What is new depends only on which ids were seen, not on their order. -/
theorem fresh_congr {seen seen' : List ObjectId} (h : ∀ id, id ∈ seen ↔ id ∈ seen')
    (ids : List ObjectId) : fresh seen ids = fresh seen' ids := by
  induction ids generalizing seen seen' with
  | nil => rfl
  | cons a ids ih =>
    rw [fresh, fresh]
    by_cases ha : a ∈ seen
    · rw [if_pos ha, if_pos ((h a).mp ha), ih h]
    · rw [if_neg ha, if_neg (fun ha' => ha ((h a).mpr ha')), ih]
      intro id
      rw [List.mem_cons, List.mem_cons, h id]

/-- What is fresh in two rows is what is fresh in the first, and then what is fresh in the second
once all of the first has been seen. -/
theorem fresh_append {seen seen' xs ys : List ObjectId}
    (h : ∀ id, id ∈ seen' ↔ id ∈ seen ∨ id ∈ xs) :
    fresh seen (xs ++ ys) = fresh seen xs ++ fresh seen' ys := by
  induction xs generalizing seen with
  | nil =>
    refine fresh_congr (fun id => ?_) ys
    rw [h id]
    simp
  | cons x xs ih =>
    rw [List.cons_append, fresh, fresh]
    split_ifs with hx
    · apply ih
      intro id
      rw [h id, List.mem_cons]
      constructor
      · rintro (hseen | rfl | hxs)
        · exact Or.inl hseen
        · exact Or.inl hx
        · exact Or.inr hxs
      · exact fun hid => hid.imp_right Or.inr
    · rw [List.cons_append, ih]
      intro id
      rw [h id, List.mem_cons, List.mem_cons, or_assoc, or_left_comm]

/-- Fresh ids stand in the order of their first places. -/
theorem pairwise_fresh_idxOf (seen ids : List ObjectId) :
    (fresh seen ids).Pairwise fun a b => ids.idxOf a < ids.idxOf b := by
  induction ids generalizing seen with
  | nil => exact List.Pairwise.nil
  | cons x ids ih =>
    -- Everything fresh behind `x` differs from it, so its place is one further than in the rest.
    have hrest : ∀ seen', x ∈ seen' →
        (fresh seen' ids).Pairwise fun a b => (x :: ids).idxOf a < (x :: ids).idxOf b := by
      intro seen' hx
      refine (ih seen').imp_of_mem ?_
      intro a b ha hb hlt
      have hxa : x ≠ a := fun heq => (mem_fresh_iff.mp ha).2 (heq ▸ hx)
      have hxb : x ≠ b := fun heq => (mem_fresh_iff.mp hb).2 (heq ▸ hx)
      rw [List.idxOf_cons_ne ids hxa, List.idxOf_cons_ne ids hxb]
      omega
    rw [fresh]
    split_ifs with hx
    · exact hrest seen hx
    · refine List.pairwise_cons.mpr ⟨?_, hrest (x :: seen) List.mem_cons_self⟩
      intro b hb
      have hxb : x ≠ b := fun heq => (mem_fresh_iff.mp hb).2 (heq ▸ List.mem_cons_self)
      rw [List.idxOf_cons_self, List.idxOf_cons_ne ids hxb]
      exact Nat.succ_pos _

/-! ## The ids of a walk -/

/-- A walk under way, when the ids in `done` have been visited: these and the queue are the start
and what the visited ids link to, each id where it is first named. -/
structure InOrder (load : ObjectId → Except StoreError Commit) (mainline : Bool)
    (start : ObjectId) (done : List ObjectId) (w : Walk) : Prop where
  invariant : Invariant load mainline start done w
  order : done ++ w.queue = start :: fresh [start] (done.flatMap (links load mainline))

/-- The walk starts in order. -/
theorem inOrder_start (load : ObjectId → Except StoreError Commit) (mainline : Bool)
    (start : ObjectId) : InOrder load mainline start [] (Walk.start mainline start) where
  invariant := invariant_start load mainline start
  order := rfl

/-- A visit keeps the order. -/
theorem InOrder.next (h : InOrder load mainline start done w) {queue : List ObjectId}
    (hqueue : w.queue = id :: queue) :
    InOrder load mainline start (done ++ [id])
      ((Walk.links load w.mainline id).foldl discover { w with queue := queue }) where
  invariant := h.invariant.next hqueue
  order := by
    obtain ⟨-, hnext, -⟩ :=
      foldl_discover { w with queue := queue } (Walk.links load w.mainline id)
    have hseen : ∀ other, other ∈ w.seen ↔
        other ∈ [start] ∨ other ∈ done.flatMap (Walk.links load mainline) := by
      intro other
      rw [h.invariant.mem_seen_iff, h.order, List.mem_cons, mem_fresh_iff, List.mem_singleton]
      by_cases hother : other = start
      · simp [hother]
      · simp [hother]
    rw [List.flatMap_append, fresh_append hseen, List.flatMap_singleton, ← List.cons_append,
      ← h.order, hnext, hqueue, h.invariant.mode]
    simp

/-- The ids of a walk are the start and what they link to themselves, each where it is first
named. -/
theorem Yields.ids_eq {vs : List Visit} (h : (Walk.start mainline start).Yields load vs) :
    vs.map Visit.id =
      start :: fresh [start] ((vs.map Visit.id).flatMap (links load mainline)) := by
  obtain ⟨w, hqueue, hend⟩ := h.exists_end (fun hdone hqueue => hdone.next hqueue)
    (inOrder_start load mainline start)
  have horder := hend.order
  rwa [hqueue, List.append_nil, List.nil_append] at horder

/-! ## Where an id is named -/

/-- Where some commits first name an id as a parent: the position of the first that does, and the
first position of the id among its parents. -/
def naming (load : ObjectId → Except StoreError Commit) (mainline : Bool) (ids : List ObjectId)
    (id : ObjectId) : ℕ ×ₗ ℕ :=
  let names child := decide (id ∈ links load mainline child)
  toLex (ids.findIdx names,
    (ids.find? names).elim 0 fun child => (links load mainline child).idxOf id)

/-- An id that the first one names is named there. -/
theorem naming_cons_of_mem {child : ObjectId} (h : id ∈ links load mainline child) :
    naming load mainline (child :: ids) id = toLex (0, (links load mainline child).idxOf id) := by
  simp [naming, List.findIdx_cons, h]

/-- An id that it does not name is named later. -/
theorem naming_cons_of_not_mem {child : ObjectId} (h : id ∉ links load mainline child) :
    naming load mainline (child :: ids) id =
      toLex ((ofLex (naming load mainline ids id)).1 + 1,
        (ofLex (naming load mainline ids id)).2) := by
  simp [naming, List.findIdx_cons, h]

/-- What is fresh among the links of some ids stands in the order of its naming. -/
theorem pairwise_naming (seen ids : List ObjectId) :
    (fresh seen (ids.flatMap (links load mainline))).Pairwise fun a b =>
      naming load mainline ids a < naming load mainline ids b := by
  induction ids generalizing seen with
  | nil => exact List.Pairwise.nil
  | cons child ids ih =>
    have hseen : ∀ id, id ∈ seen ++ links load mainline child ↔
        id ∈ seen ∨ id ∈ links load mainline child := fun id => List.mem_append
    -- Behind the links of `child` stands only what `child` does not name.
    have hlater : ∀ id ∈ fresh (seen ++ links load mainline child)
        (ids.flatMap (links load mainline)), id ∉ links load mainline child := by
      intro id hid hnamed
      exact (mem_fresh_iff.mp hid).2 (List.mem_append_right _ hnamed)
    rw [List.flatMap_cons, fresh_append hseen, List.pairwise_append]
    refine ⟨?_, ?_, ?_⟩
    · refine (pairwise_fresh_idxOf seen _).imp_of_mem ?_
      intro a b ha hb hlt
      rw [naming_cons_of_mem (mem_fresh_iff.mp ha).1, naming_cons_of_mem (mem_fresh_iff.mp hb).1,
        Prod.Lex.toLex_lt_toLex]
      exact Or.inr ⟨rfl, hlt⟩
    · refine (ih _).imp_of_mem ?_
      intro a b ha hb hlt
      rw [naming_cons_of_not_mem (hlater a ha), naming_cons_of_not_mem (hlater b hb),
        Prod.Lex.toLex_lt_toLex]
      rw [Prod.Lex.lt_iff] at hlt
      omega
    · intro a ha b hb
      rw [naming_cons_of_mem (mem_fresh_iff.mp ha).1, naming_cons_of_not_mem (hlater b hb),
        Prod.Lex.toLex_lt_toLex]
      exact Or.inl (Nat.succ_pos _)

/-- An id that is named by the one at a position is first named there or before. -/
theorem naming_fst_le {m : ℕ} (hm : m < ids.length) (h : id ∈ links load mainline ids[m]) :
    (ofLex (naming load mainline ids id)).1 ≤ m := by
  by_contra hlt
  have := List.not_of_lt_findIdx (Nat.not_le.mp hlt)
  simp [h] at this

/-- An id that is named is named by the one at its first position. -/
theorem mem_links_naming {child : ObjectId} (hchild : child ∈ ids)
    (h : id ∈ links load mainline child) :
    ∃ hlt : (ofLex (naming load mainline ids id)).1 < ids.length,
      id ∈ links load mainline ids[(ofLex (naming load mainline ids id)).1] := by
  have hlt : (ofLex (naming load mainline ids id)).1 < ids.length :=
    List.findIdx_lt_length_of_exists ⟨child, hchild, decide_eq_true h⟩
  exact ⟨hlt, of_decide_eq_true (List.findIdx_getElem (w := hlt))⟩

/-! ## Breadth first -/

/-- Ids in breadth-first order: from the start on they get no nearer, each later one is a parent
that one before it names, and the later ones stand in the order of their naming. -/
structure IsBreadthFirst (load : ObjectId → Except StoreError Commit) (mainline : Bool)
    (start : ObjectId) (ids : List ObjectId) : Prop where
  head : ids.head? = some start
  isLeast : ∀ id ∈ ids,
    IsLeast {n | ReachesIn load mainline start n id} (distance load mainline start id)
  distances : ids.Pairwise fun a b =>
    distance load mainline start a ≤ distance load mainline start b
  named : ∀ front id back, ids = front ++ id :: back → front ≠ [] →
    ∃ child ∈ front, id ∈ links load mainline child
  namings : ids.tail.Pairwise fun a b =>
    naming load mainline ids a < naming load mainline ids b

section

variable {rest : List ObjectId}
variable (hrest : rest = fresh [start] ((start :: rest).flatMap (links load mainline)))
variable (hmem : ∀ id, id ∈ start :: rest ↔ Reaches load mainline start id)

include hrest in
/-- The start is not visited again. -/
theorem ne_start_of_mem_rest (h : id ∈ rest) : id ≠ start := by
  rw [hrest] at h
  exact List.ne_of_not_mem_cons (mem_fresh_iff.mp h).2

include hrest in
/-- The ids behind the start are visited in the order in which they are named. -/
theorem pairwise_naming_rest : rest.Pairwise fun a b =>
    naming load mainline (start :: rest) a < naming load mainline (start :: rest) b := by
  have h : (fresh [start] ((start :: rest).flatMap (links load mainline))).Pairwise fun a b =>
      naming load mainline (start :: rest) a < naming load mainline (start :: rest) b :=
    pairwise_naming [start] (start :: rest)
  rwa [← hrest] at h

include hrest in
/-- What is visited after the start is named by something that is visited. -/
theorem exists_child_of_mem_rest (h : id ∈ rest) :
    ∃ child ∈ start :: rest, id ∈ links load mainline child := by
  rw [hrest] at h
  exact List.mem_flatMap.mp (mem_fresh_iff.mp h).1

include hrest hmem in
/-- What is visited later is no nearer. -/
theorem distance_le_of_lt {i j : ℕ} (hij : i < j) (hj : j < (start :: rest).length) :
    distance load mainline start (start :: rest)[i] ≤
      distance load mainline start (start :: rest)[j] := by
  -- The induction is on the distance of the later id: its predecessor on a shortest way is nearer.
  generalize hd : distance load mainline start (start :: rest)[j] = d
  induction d using Nat.strong_induction_on generalizing i j with
  | _ d ih =>
    cases i with
    | zero =>
      rw [List.getElem_cons_zero, distance_start]
      exact Nat.zero_le d
    | succ i =>
      obtain ⟨j, rfl⟩ : ∃ j', j = j' + 1 := ⟨j - 1, by omega⟩
      rw [List.getElem_cons_succ] at hd ⊢
      have hj' : j < rest.length := Nat.lt_of_succ_lt_succ hj
      have hlater : rest[j] ∈ rest := List.getElem_mem hj'
      have hearlier : rest[i] ∈ rest := List.getElem_mem (by omega)
      -- The later id is named by the one at `m`, the earlier one by the one at `k`, and `k ≤ m`.
      obtain ⟨near, hnear, hlink, hstep⟩ := exists_link
        ((hmem _).mp (List.mem_cons_of_mem start hlater)) (ne_start_of_mem_rest hrest hlater)
      obtain ⟨m, hm, rfl⟩ := List.getElem_of_mem ((hmem near).mpr hnear)
      obtain ⟨child, hchild, hnamed⟩ := exists_child_of_mem_rest hrest hearlier
      obtain ⟨hk, hfirst⟩ := mem_links_naming hchild hnamed
      have hnaming := List.pairwise_iff_getElem.mp (pairwise_naming_rest hrest) i j
        (by omega) hj' (by omega)
      generalize hposition : (ofLex (naming load mainline (start :: rest) rest[i])).1 = k
        at hk hfirst
      have hkm : k ≤ m := by
        have := naming_fst_le hm hlink
        rw [Prod.Lex.lt_iff] at hnaming
        omega
      have hdistances : distance load mainline start (start :: rest)[k] ≤
          distance load mainline start (start :: rest)[m] := by
        rcases Nat.eq_or_lt_of_le hkm with rfl | hlt
        · exact Nat.le_refl _
        · exact ih _ (by omega) hlt hm rfl
      have hstep' := distance_le_of_link ((hmem _).mp (List.getElem_mem hk)) hfirst
      omega

include hrest hmem in
/-- The ids are visited from near to far. -/
theorem pairwise_distance : (start :: rest).Pairwise fun a b =>
    distance load mainline start a ≤ distance load mainline start b :=
  List.pairwise_iff_getElem.mpr fun _ _ _ hj hij => distance_le_of_lt hrest hmem hij hj

include hrest hmem in
/-- What is visited after the start is named by something that is visited before it. -/
theorem exists_child_before {front back : List ObjectId}
    (hsplit : start :: rest = front ++ id :: back) (hfront : front ≠ []) :
    ∃ child ∈ front, id ∈ links load mainline child := by
  have hid : id ∈ rest := by
    cases front with
    | nil => exact absurd rfl hfront
    | cons first front =>
      rw [List.cons_append, List.cons.injEq] at hsplit
      rw [hsplit.2]
      exact List.mem_append_right front List.mem_cons_self
  obtain ⟨child, hchild, hlink, hstep⟩ := exists_link
    ((hmem _).mp (List.mem_cons_of_mem start hid)) (ne_start_of_mem_rest hrest hid)
  refine ⟨child, ?_, hlink⟩
  have hmember := (hmem child).mpr hchild
  have horder := pairwise_distance hrest hmem
  rw [hsplit] at hmember horder
  rcases List.mem_append.mp hmember with hbefore | hafter
  · exact hbefore
  · -- The child is nearer than the id, so it cannot come after it.
    have hle : distance load mainline start id ≤ distance load mainline start child := by
      rcases List.mem_cons.mp hafter with rfl | hback
      · exact Nat.le_refl _
      · exact List.rel_of_pairwise_cons (List.pairwise_append.mp horder).2.1 hback
    omega

include hrest hmem in
/-- The walk is breadth first. -/
theorem isBreadthFirst : IsBreadthFirst load mainline start (start :: rest) where
  head := rfl
  isLeast id hid := distance_isLeast ((hmem id).mp hid)
  distances := pairwise_distance hrest hmem
  named _ _ _ := exists_child_before hrest hmem
  namings := pairwise_naming_rest hrest

end

/-- A walk through a database that follows all parents visits what it reaches in breadth-first
order, whatever the files of the database hold. -/
theorem visits_breadth_first (db : Database) (t : FileTree) (start : ObjectId) :
    ∃ vs : List Visit,
      (Walk.start false start).Yields (db.parseCommit t) vs ∧
      (∀ limit, (Walk.start false start).visits (db.parseCommit t) limit = vs.take limit) ∧
      (∀ visit ∈ vs, visit.commit = db.parseCommit t visit.id) ∧
      IsBreadthFirst (db.parseCommit t) false start (vs.map Visit.id) := by
  obtain ⟨loaded, hloaded⟩ := db.exists_commits t
  obtain ⟨vs, hyields, hcommits, -, hmem⟩ :
      ∃ vs, (Walk.start false start).Yields (db.parseCommit t) vs ∧ _ := exists_yields hloaded
  refine ⟨vs, hyields, hyields.visits, hcommits, ?_⟩
  have hids := hyields.ids_eq
  generalize vs.map Visit.id = ids at hids hmem ⊢
  obtain ⟨rest, rfl⟩ : ∃ rest, ids = start :: rest := ⟨_, hids⟩
  exact isBreadthFirst (List.tail_eq_of_cons_eq hids) hmem

end ObjectStore.Walk
