import ObjectStore.Proofs.Refs.Head

/-!
# Following symbolic refs

A ref is followed from file to file until one holds an id. Here the way is described apart from the
function that takes it: a file whose text is a symbolic ref leads to another one, and a file that
leads nowhere decides what comes of it.

* `Refs.Leads`, `Refs.Hops`: one hop from file to file, and so many of them in a row.
* `Refs.Stop.Gives`: what comes of a file that leads nowhere.
* `Refs.follow_iff`: following a ref through so many files comes to what the first file gives that
  leads nowhere, and fails if none of them does. `Refs.readsAtMost_follow` says that nothing but
  the files on the way is read for that.
* `Refs.Hops.of_cycle`: a way that comes back to a file it has been to goes on for ever.
* `Refs.resolve_follows`: `HEAD` and the branches are followed through five hops, whatever the files
  hold. Only a `HEAD` that is not there is not followed at all, and that includes one that a file is
  in the way of (`Refs.resolveHead_blocked`).
-/

namespace ObjectStore

/-! ## The texts of refs -/

namespace RefContent

variable {text target : String} {id : ObjectId}

/-- A text that is a symbolic ref to a target: one line, whose target may have blanks before it. -/
def IsSymbolic (text target : String) : Prop :=
  ∃ rest, text = "ref: " ++ rest ∧ rest ≠ "" ∧ '\n' ∉ rest.toList ∧ Text.trim rest = target

/-- A text that is an id in hex, with letters of either case. -/
def Spells (text : String) (id : ObjectId) : Prop := text.toList.map Char.toLower = id.hex

/-- The texts that name another ref. -/
theorem ofText?_eq_symbolic_iff :
    ofText? text = some (.symbolic target) ↔ IsSymbolic text target := by
  constructor
  · intro h
    unfold ofText? at h
    split at h
    · next c rest heq =>
      split_ifs at h with hfeed
      cases h
      refine ⟨String.ofList (c :: rest), ?_, ?_, ?_, rfl⟩
      · rw [← String.toList_inj, heq, String.toList_append, @String.toList_ofList (c :: rest)]
        rfl
      · rw [ne_eq, String.ofList_eq_empty_iff]
        exact List.cons_ne_nil c rest
      · rwa [String.toList_ofList]
    · rw [Option.map_eq_some_iff] at h
      obtain ⟨id, -, heq⟩ := h
      cases heq
  · rintro ⟨rest, rfl, hne, hfeed, rfl⟩
    obtain ⟨c, l, hl⟩ := List.exists_cons_of_ne_nil (mt String.toList_eq_nil_iff.mp hne)
    have hlist : ("ref: " ++ rest).toList = 'r' :: 'e' :: 'f' :: ':' :: ' ' :: c :: l := by
      rw [String.toList_append, hl]
      rfl
    have hrest : String.ofList (c :: l) = rest := by rw [← hl, String.ofList_toList]
    rw [hl] at hfeed
    unfold ofText?
    rw [hlist]
    simp only [if_neg hfeed, hrest]

/-- The texts that name an id. -/
theorem ofText?_eq_direct_iff : ofText? text = some (.direct id) ↔ Spells text id := by
  rw [Spells, eq_comm (a := text.toList.map _), ← ObjectId.parse?_eq_some_iff]
  unfold ofText?
  split
  · next c rest heq =>
    have hnot : ObjectId.parse? text ≠ some id := by
      intro h
      have hmem : 'r' ∈ id.hex := by
        rw [ObjectId.parse?_eq_some_iff.mp h, heq]
        exact List.mem_cons_self
      exact id.not_mem_hex_of_ne (by decide) hmem
    refine iff_of_false (fun h => ?_) hnot
    split_ifs at h
    cases h
  · simp

/-- The texts that name neither. -/
theorem ofText?_eq_none_iff :
    ofText? text = none ↔ (∀ target, ¬ IsSymbolic text target) ∧ ∀ id, ¬ Spells text id := by
  simp only [← ofText?_eq_symbolic_iff, ← ofText?_eq_direct_iff]
  cases h : ofText? text with
  | none => simp
  | some content => cases content <;> simp

end RefContent

namespace Refs

/-! ## The way from file to file -/

/-- A ref on the way: what it is called, and the file it is read from. -/
structure Stop where
  name : String
  path : Path

/-- The text of the file of a ref, without the blanks at its ends. -/
def Stop.Reads (t : FileTree) (s : Stop) (text : String) : Prop :=
  ∃ content, t.readText s.path = .ok content ∧ Text.trim content = text

/-- The text of a ref is symbolic and names the next one, which is taken from the git directory. -/
def Leads (refs : Refs) (t : FileTree) (a b : Stop) : Prop :=
  ∃ text, a.Reads t text ∧ RefContent.IsSymbolic text b.name ∧
    b.path = refs.gitPath.join ⟨b.name⟩

/-- So many hops lead from one ref to another. -/
inductive Hops (refs : Refs) (t : FileTree) : Nat → Stop → Stop → Prop
  | none (a : Stop) : Hops refs t 0 a a
  | hop {n : Nat} {a b c : Stop} (h : refs.Leads t a b) (hrest : Hops refs t n b c) :
      Hops refs t (n + 1) a c

/-- What comes of a ref that leads nowhere. -/
inductive Stop.Gives (t : FileTree) (s : Stop) : Except StoreError (Option ObjectId) → Prop
  | id {text : String} {x : ObjectId} (h : s.Reads t text) (hid : RefContent.Spells text x) :
      Gives t s (.ok (some x))
  | absent (h : t.readText s.path = .error .notFound) : Gives t s (.ok none)
  | unreadable {fault : IoFault} (h : t.readText s.path = .error fault) (hne : fault ≠ .notFound) :
      Gives t s (.error (.io s.path fault))
  | unrecognized {text : String} (h : s.Reads t text)
      (hsymbolic : ∀ target, ¬ RefContent.IsSymbolic text target)
      (hid : ∀ x, ¬ RefContent.Spells text x) :
      Gives t s (.error (.invalidRef s.name (.unrecognized text)))

variable {refs : Refs} {t t' : FileTree} {a b c : Stop} {n m reads : Nat} {text : String}
variable {result : Except StoreError (Option ObjectId)}

/-- A lead is one hop. -/
theorem Hops.one (h : refs.Leads t a b) : refs.Hops t 1 a b := .hop h (.none b)

/-- Hops can be put one after the other. -/
theorem Hops.add (h : refs.Hops t n a b) (h' : refs.Hops t m b c) : refs.Hops t (n + m) a c := by
  induction h with
  | none a => rwa [Nat.zero_add]
  | hop hab _ ih =>
    rw [Nat.succ_add]
    exact .hop hab (ih h')

/-- A longer way goes through a stop at every smaller number of hops. -/
theorem Hops.exists_of_le (h : refs.Hops t n a b) (hle : m ≤ n) : ∃ c, refs.Hops t m a c := by
  induction h generalizing m with
  | none a =>
    obtain rfl := Nat.le_zero.mp hle
    exact ⟨a, .none a⟩
  | @hop n a b _ hab _ ih =>
    cases m with
    | zero => exact ⟨a, .none a⟩
    | succ m =>
      obtain ⟨c, hc⟩ := ih (Nat.le_of_succ_le_succ hle)
      exact ⟨c, .hop hab hc⟩

/-! ## One ref -/

/-- What a stop reads depends only on what is at its path. -/
theorem Stop.Reads.congr (h : a.Reads t text) (hread : t'.readText b.path = t.readText a.path) :
    b.Reads t' text := by
  rwa [Stop.Reads, hread]

/-- Where a ref leads depends on its text only. -/
theorem Leads.congr (h : refs.Leads t a c) (hread : t'.readText b.path = t.readText a.path) :
    refs.Leads t' b c := by
  obtain ⟨text, hreads, hnext⟩ := h
  exact ⟨text, hreads.congr hread, hnext⟩

/-- So does what comes of it. -/
theorem Stop.Gives.congr (h : a.Gives t result) (hread : t'.readText a.path = t.readText a.path) :
    a.Gives t' result := by
  cases h with
  | id hreads hid => exact .id (hreads.congr hread) hid
  | absent h => exact .absent (hread.trans h)
  | unreadable h hne => exact .unreadable (hread.trans h) hne
  | unrecognized hreads hsymbolic hid => exact .unrecognized (hreads.congr hread) hsymbolic hid

/-- Reading a ref takes its text for what it names. -/
theorem read_of_reads (h : a.Reads t text) : read t a.name a.path =
    match RefContent.ofText? text with
    | some content => .ok (some content)
    | none => .error (.invalidRef a.name (.unrecognized text)) := by
  obtain ⟨content, hcontent, rfl⟩ := h
  cases htext : RefContent.ofText? (Text.trim content) <;> simp only [read, hcontent, htext]

/-- Following a ref that leads to another one goes on there, with one read less. -/
theorem follow_of_leads (h : refs.Leads t a b) :
    refs.follow t (reads + 1) a.name a.path = refs.follow t reads b.name b.path := by
  obtain ⟨text, hreads, hsymbolic, hpath⟩ := h
  have hread : read t a.name a.path = .ok (some (.symbolic b.name)) := by
    rw [read_of_reads hreads, RefContent.ofText?_eq_symbolic_iff.mpr hsymbolic]
  rw [follow, hpath]
  exact bind_of_eq_ok hread

/-- Following a ref that leads to no other one ends there. -/
theorem follow_of_gives (h : a.Gives t result) :
    refs.follow t (reads + 1) a.name a.path = result := by
  rw [follow]
  cases h with
  | @id text x hreads hid =>
    have hread : read t a.name a.path = .ok (some (.direct x)) := by
      rw [read_of_reads hreads, RefContent.ofText?_eq_direct_iff.mpr hid]
    exact bind_of_eq_ok hread
  | absent h =>
    have hread : read t a.name a.path = .ok none := by rw [read, h]
    exact bind_of_eq_ok hread
  | @unreadable fault h hne =>
    have hread : read t a.name a.path = .error (.io a.path fault) := by
      rw [read, h]
      cases fault with
      | notFound => exact absurd rfl hne
      | _ => exact Eq.refl _
    exact bind_of_eq_error hread
  | @unrecognized text hreads hsymbolic hid =>
    have hread : read t a.name a.path = .error (.invalidRef a.name (.unrecognized text)) := by
      rw [read_of_reads hreads, RefContent.ofText?_eq_none_iff.mpr ⟨hsymbolic, hid⟩]
    exact bind_of_eq_error hread

/-- A ref leads somewhere, or something comes of it. -/
theorem Stop.leads_or_gives (refs : Refs) (t : FileTree) (a : Stop) :
    (∃ b, refs.Leads t a b) ∨ ∃ result, a.Gives t result := by
  cases hread : t.readText a.path with
  | error fault =>
    refine Or.inr ?_
    by_cases hfault : fault = .notFound
    · exact ⟨_, .absent (hfault ▸ hread)⟩
    · exact ⟨_, .unreadable hread hfault⟩
  | ok content =>
    have hreads : a.Reads t (Text.trim content) := ⟨content, hread, rfl⟩
    cases htext : RefContent.ofText? (Text.trim content) with
    | none =>
      obtain ⟨hsymbolic, hid⟩ := RefContent.ofText?_eq_none_iff.mp htext
      exact Or.inr ⟨_, .unrecognized hreads hsymbolic hid⟩
    | some known =>
      cases known with
      | symbolic target =>
        refine Or.inl ⟨⟨target, refs.gitPath.join ⟨target⟩⟩, _, hreads, ?_, rfl⟩
        exact RefContent.ofText?_eq_symbolic_iff.mp htext
      | direct id => exact Or.inr ⟨_, .id hreads (RefContent.ofText?_eq_direct_iff.mp htext)⟩

/-! ## The whole way -/

/-- What following a ref comes to if so many files may be read: what the first ref gives that leads
nowhere, or a failure at the ref whose file is one too many. -/
def ComesTo (refs : Refs) (t : FileTree) (reads : Nat) (a : Stop)
    (result : Except StoreError (Option ObjectId)) : Prop :=
  (∃ n b, n < reads ∧ refs.Hops t n a b ∧ b.Gives t result) ∨
    ∃ b, refs.Hops t reads a b ∧ result = .error (.invalidRef b.name .tooManyLevels)

/-- Following a ref goes on where its hops end. -/
theorem follow_of_hops (h : refs.Hops t n a b) :
    refs.follow t (n + reads) a.name a.path = refs.follow t reads b.name b.path := by
  induction h with
  | none a => rw [Nat.zero_add]
  | hop hab _ ih => rw [Nat.succ_add, follow_of_leads hab, ih]

/-- Whatever a ref comes to is what following it gives. -/
theorem follow_of_comesTo (h : refs.ComesTo t reads a result) :
    refs.follow t reads a.name a.path = result := by
  obtain ⟨n, b, hn, hhops, hgives⟩ | ⟨b, hhops, rfl⟩ := h
  · obtain ⟨rest, rfl⟩ := Nat.exists_eq_add_of_lt hn
    rw [Nat.add_assoc, follow_of_hops hhops, follow_of_gives hgives]
  · rw [← Nat.add_zero reads, follow_of_hops hhops, follow]

/-- Every way comes to something. -/
theorem exists_comesTo (refs : Refs) (t : FileTree) (reads : Nat) (a : Stop) :
    ∃ result, refs.ComesTo t reads a result := by
  induction reads generalizing a with
  | zero => exact ⟨_, Or.inr ⟨a, .none a, rfl⟩⟩
  | succ reads ih =>
    obtain ⟨b, hab⟩ | ⟨result, hgives⟩ := a.leads_or_gives refs t
    · obtain ⟨result, ⟨n, c, hn, hhops, hgives⟩ | ⟨c, hhops, hresult⟩⟩ := ih b
      · exact ⟨result, Or.inl ⟨n + 1, c, Nat.succ_lt_succ hn, .hop hab hhops, hgives⟩⟩
      · exact ⟨result, Or.inr ⟨c, .hop hab hhops, hresult⟩⟩
    · exact ⟨result, Or.inl ⟨0, a, Nat.succ_pos reads, .none a, hgives⟩⟩

/-- What following a ref comes to, on any way and through any number of files. -/
theorem follow_iff :
    refs.follow t reads a.name a.path = result ↔ refs.ComesTo t reads a result := by
  constructor
  · rintro rfl
    obtain ⟨result, hresult⟩ := refs.exists_comesTo t reads a
    rwa [follow_of_comesTo hresult]
  · exact follow_of_comesTo

/-- What following a ref comes to is decided by the texts of some files on the way, no more than may
be read. If any may, that of the ref itself is one of them. -/
theorem exists_paths (refs : Refs) (t : FileTree) (reads : Nat) (a : Stop) :
    ∃ paths : List Path, paths.length ≤ reads ∧ (0 < reads → a.path ∈ paths) ∧
      (∀ p ∈ paths, ∃ n b, n < reads ∧ refs.Hops t n a b ∧ b.path = p) ∧
      ∀ t', (∀ p ∈ paths, t'.readText p = t.readText p) →
        refs.follow t' reads a.name a.path = refs.follow t reads a.name a.path := by
  induction reads generalizing a with
  | zero => exact ⟨[], Nat.le_refl 0, nofun, by simp, fun _ _ => rfl⟩
  | succ reads ih =>
    have hstart : ∃ n b, n < reads + 1 ∧ refs.Hops t n a b ∧ b.path = a.path :=
      ⟨0, a, Nat.succ_pos reads, .none a, rfl⟩
    obtain ⟨b, hab⟩ | ⟨result, hgives⟩ := a.leads_or_gives refs t
    · obtain ⟨paths, hlength, -, hway, hsame⟩ := ih b
      refine ⟨a.path :: paths, Nat.succ_le_succ hlength, fun _ => List.mem_cons_self, ?_, ?_⟩
      · rw [List.forall_mem_cons]
        refine ⟨hstart, fun p hp => ?_⟩
        obtain ⟨n, c, hn, hhops, hc⟩ := hway p hp
        exact ⟨n + 1, c, Nat.succ_lt_succ hn, .hop hab hhops, hc⟩
      · intro t' hread
        rw [List.forall_mem_cons] at hread
        rw [follow_of_leads hab, follow_of_leads (hab.congr hread.1), hsame t' hread.2]
    · refine ⟨[a.path], Nat.succ_le_succ (Nat.zero_le reads), fun _ => List.mem_cons_self, ?_, ?_⟩
      · rwa [List.forall_mem_singleton]
      · intro t' hread
        rw [List.forall_mem_singleton] at hread
        rw [follow_of_gives hgives, follow_of_gives (hgives.congr hread)]

/-! ## Ways that come back -/

/-- The first hop depends only on what is read at its stop. -/
theorem Hops.congr (h : refs.Hops t (n + 1) a c) (hread : t.readText b.path = t.readText a.path) :
    refs.Hops t (n + 1) b c := by
  cases h with
  | hop hab hrest => exact .hop (hab.congr hread) hrest

/-- A way that comes back to a file it has been to has any number of hops. -/
theorem Hops.of_cycle (h : refs.Hops t (n + 1) a b) (hsame : t.locate b.path = t.locate a.path)
    (k : Nat) : ∃ c, refs.Hops t k a c := by
  have hround : refs.Hops t (n + 1) b b := h.congr (FileTree.readText_of_locate_eq hsame)
  have hrounds : ∀ k, refs.Hops t (k * (n + 1)) b b := by
    intro k
    induction k with
    | zero =>
      rw [Nat.zero_mul]
      exact .none b
    | succ k ih =>
      rw [Nat.succ_mul]
      exact ih.add hround
  refine (h.add (hrounds k)).exists_of_le ?_
  rw [Nat.mul_succ]
  omega

/-! ## What following comes to -/

/-- An id is given exactly if the hops lead to a ref that spells it, within the reads there are. -/
theorem follow_eq_id_iff {x : ObjectId} : refs.follow t reads a.name a.path = .ok (some x) ↔
    ∃ n b text, n < reads ∧ refs.Hops t n a b ∧ b.Reads t text ∧ RefContent.Spells text x := by
  rw [follow_iff]
  constructor
  · rintro (⟨n, b, hn, hhops, hgives⟩ | ⟨b, -, herror⟩)
    · cases hgives with
      | id hreads hid => exact ⟨n, b, _, hn, hhops, hreads, hid⟩
    · cases herror
  · rintro ⟨n, b, text, hn, hhops, hreads, hid⟩
    exact Or.inl ⟨n, b, hn, hhops, .id hreads hid⟩

/-- Nothing is given exactly if the hops lead to a ref that is missing. -/
theorem follow_eq_none_iff : refs.follow t reads a.name a.path = .ok none ↔
    ∃ n b, n < reads ∧ refs.Hops t n a b ∧ t.readText b.path = .error .notFound := by
  rw [follow_iff]
  constructor
  · rintro (⟨n, b, hn, hhops, hgives⟩ | ⟨b, -, herror⟩)
    · cases hgives with
      | absent habsent => exact ⟨n, b, hn, hhops, habsent⟩
    · cases herror
  · rintro ⟨n, b, hn, hhops, habsent⟩
    exact Or.inl ⟨n, b, hn, hhops, .absent habsent⟩

/-- There are too many levels exactly if the hops use up all reads. -/
theorem follow_eq_tooMany_iff {name : String} :
    refs.follow t reads a.name a.path = .error (.invalidRef name .tooManyLevels) ↔
      ∃ b, refs.Hops t reads a b ∧ b.name = name := by
  rw [follow_iff]
  constructor
  · rintro (⟨n, b, hn, hhops, hgives⟩ | ⟨b, hhops, herror⟩)
    · cases hgives
    · cases herror
      exact ⟨b, hhops, rfl⟩
  · rintro ⟨b, hhops, rfl⟩
    exact Or.inr ⟨b, hhops, rfl⟩

/-- A text is not recognized exactly if the hops lead to a ref with that text. -/
theorem follow_eq_unrecognized_iff {name : String} :
    refs.follow t reads a.name a.path = .error (.invalidRef name (.unrecognized text)) ↔
      ∃ n b, n < reads ∧ refs.Hops t n a b ∧ b.name = name ∧ b.Reads t text ∧
        (∀ target, ¬ RefContent.IsSymbolic text target) ∧ ∀ x, ¬ RefContent.Spells text x := by
  rw [follow_iff]
  constructor
  · rintro (⟨n, b, hn, hhops, hgives⟩ | ⟨b, -, herror⟩)
    · cases hgives with
      | unrecognized hreads hsymbolic hid => exact ⟨n, b, hn, hhops, rfl, hreads, hsymbolic, hid⟩
    · cases herror
  · rintro ⟨n, b, hn, hhops, rfl, hreads, hsymbolic, hid⟩
    exact Or.inl ⟨n, b, hn, hhops, .unrecognized hreads hsymbolic hid⟩

/-- Reading fails exactly if the hops lead to a ref that cannot be read and is not missing. -/
theorem follow_eq_io_iff {path : Path} {fault : IoFault} :
    refs.follow t reads a.name a.path = .error (.io path fault) ↔
      ∃ n b, n < reads ∧ refs.Hops t n a b ∧ b.path = path ∧ t.readText path = .error fault ∧
        fault ≠ .notFound := by
  rw [follow_iff]
  constructor
  · rintro (⟨n, b, hn, hhops, hgives⟩ | ⟨b, -, herror⟩)
    · cases hgives with
      | unreadable hread hne => exact ⟨n, b, hn, hhops, rfl, hread, hne⟩
    · cases herror
  · rintro ⟨n, b, hn, hhops, rfl, hread, hne⟩
    exact Or.inl ⟨n, b, hn, hhops, .unreadable hread hne⟩

/-- Following a ref never fails because something does not exist. -/
theorem isNotFound_of_follow_error {err : StoreError}
    (h : refs.follow t reads a.name a.path = .error err) : err.isNotFound = false := by
  obtain ⟨n, b, -, -, hgives⟩ | ⟨b, -, herror⟩ := follow_iff.mp h
  · cases hgives <;> rfl
  · cases herror
    rfl

/-! ## `HEAD` and the branches -/

/-- What it means to follow a ref from a start through at most five hops. An id that is found makes
the result `found`, and a file that is missing makes it `missing`. -/
structure Follows {α : Type} (refs : Refs) (t : FileTree) (start : Stop) (found : ObjectId → α)
    (missing result : Except StoreError α) : Prop where
  /-- An id comes out exactly if a file within five hops holds it in hex. -/
  found_iff : ∀ x, result = .ok (found x) ↔
    ∃ n b text, n ≤ 5 ∧ refs.Hops t n start b ∧ b.Reads t text ∧ RefContent.Spells text x
  /-- There is no commit exactly if a file within five hops is absent. -/
  missing_iff : result = missing ↔
    ∃ n b, n ≤ 5 ∧ refs.Hops t n start b ∧ t.readText b.path = .error .notFound
  /-- Six hops are too many, and the error names the ref they lead to. -/
  tooMany_iff : ∀ name, result = .error (.invalidRef name .tooManyLevels) ↔
    ∃ b, refs.Hops t 6 start b ∧ b.name = name
  /-- So is any greater number of hops. -/
  tooMany : ∀ n b, 5 < n → refs.Hops t n start b →
    ∃ name, result = .error (.invalidRef name .tooManyLevels)
  /-- So is a way that comes back to a file it has been to. -/
  cycle : ∀ m n a b, refs.Hops t m start a → refs.Hops t (n + 1) a b →
    t.locate b.path = t.locate a.path → ∃ name, result = .error (.invalidRef name .tooManyLevels)
  /-- A ref is not understood exactly if a file within five hops has a text that is no ref. -/
  unrecognized_iff : ∀ name text, result = .error (.invalidRef name (.unrecognized text)) ↔
    ∃ n b, n ≤ 5 ∧ refs.Hops t n start b ∧ b.name = name ∧ b.Reads t text ∧
      (∀ target, ¬ RefContent.IsSymbolic text target) ∧ ∀ x, ¬ RefContent.Spells text x
  /-- The file tree is at fault exactly if a file within five hops cannot be read. -/
  io_iff : ∀ path fault, result = .error (.io path fault) ↔
    ∃ n b, n ≤ 5 ∧ refs.Hops t n start b ∧ b.path = path ∧ t.readText path = .error fault ∧
      fault ≠ .notFound
  /-- That is so if a directory or a file is in the way, or what the file holds is not UTF-8. -/
  io : ∀ n b, n ≤ 5 → refs.Hops t n start b → t.IsUnreadable b.path →
    ∃ fault, result = .error (.io b.path fault)

/-- Following a ref does that, and so does whatever passes its results on. -/
theorem follows_of_follow {α : Type} {start : Stop} {found : ObjectId → α}
    {missing result : Except StoreError α}
    (hfound : ∀ x, result = .ok (found x)
      ↔ refs.follow t readLimit start.name start.path = .ok (some x))
    (hmissing : result = missing ↔ refs.follow t readLimit start.name start.path = .ok none)
    (herror : ∀ err, err.isNotFound = false → (result = .error err
      ↔ refs.follow t readLimit start.name start.path = .error err)) :
    refs.Follows t start found missing result := by
  have htooMany : ∀ name, result = .error (.invalidRef name .tooManyLevels) ↔
      ∃ b, refs.Hops t 6 start b ∧ b.name = name :=
    fun name => (herror _ rfl).trans follow_eq_tooMany_iff
  have hlong : ∀ n b, 5 < n → refs.Hops t n start b →
      ∃ name, result = .error (.invalidRef name .tooManyLevels) := by
    intro n b hn hhops
    obtain ⟨c, hc⟩ := hhops.exists_of_le (Nat.succ_le_of_lt hn)
    exact ⟨c.name, (htooMany c.name).mpr ⟨c, hc, rfl⟩⟩
  have hcycle : ∀ m n a b, refs.Hops t m start a → refs.Hops t (n + 1) a b →
      t.locate b.path = t.locate a.path →
      ∃ name, result = .error (.invalidRef name .tooManyLevels) := by
    intro m n a b hstart hround hsame
    obtain ⟨c, hc⟩ := hround.of_cycle hsame 6
    exact hlong _ c (by omega) (hstart.add hc)
  simp only [follow_eq_id_iff, readLimit, Nat.lt_succ_iff] at hfound
  rw [follow_eq_none_iff] at hmissing
  simp only [readLimit, Nat.lt_succ_iff] at hmissing
  have hio : ∀ path fault, result = .error (.io path fault) ↔
      ∃ n b, n ≤ 5 ∧ refs.Hops t n start b ∧ b.path = path ∧ t.readText path = .error fault ∧
        fault ≠ .notFound := by
    intro path fault
    rw [herror _ rfl, follow_eq_io_iff]
    simp only [readLimit, Nat.lt_succ_iff]
  refine ⟨hfound, hmissing, htooMany, hlong, hcycle, fun name text => ?_, hio, ?_⟩
  · rw [herror _ rfl, follow_eq_unrecognized_iff]
    simp only [readLimit, Nat.lt_succ_iff]
  · intro n b hn hhops hunreadable
    obtain ⟨fault, hread, hne⟩ := FileTree.readText_of_isUnreadable hunreadable
    exact ⟨fault, (hio b.path fault).mpr ⟨n, b, hn, hhops, rfl, hread, hne⟩⟩

/-- Where following `HEAD` starts. -/
def headStop (refs : Refs) : Stop := ⟨Layout.headFile, refs.headPath⟩

/-- Where following a branch starts. -/
def branchStop (refs : Refs) (branch : BranchName) : Stop := ⟨branch.name, refs.branchPath branch⟩

/-- A result that is decided by the texts of no more than six files, all of them within five hops of
a start. -/
def ReadsSix {α : Type} (refs : Refs) (t : FileTree) (start : Stop) (result : FileTree → α) :
    Prop :=
  ∃ paths : List Path, paths.length ≤ 6 ∧
    (∀ p ∈ paths, ∃ n b, n ≤ 5 ∧ refs.Hops t n start b ∧ b.path = p) ∧
    ∀ t', (∀ p ∈ paths, t'.readText p = t.readText p) → result t' = result t

/-- Six files decide what following comes to and whether there is anything to follow. -/
theorem readsSix {α : Type} (refs : Refs) (t : FileTree) (start : Stop)
    (result : Bool → Except StoreError (Option ObjectId) → α) :
    refs.ReadsSix t start fun t =>
      result (t.isPresent start.path) (refs.follow t readLimit start.name start.path) := by
  obtain ⟨paths, hlength, hmem, hway, hsame⟩ := refs.exists_paths t readLimit start
  simp only [readLimit, Nat.lt_succ_iff] at hway
  refine ⟨paths, hlength, hway, fun t' hread => ?_⟩
  have hpresent : t'.isPresent start.path = t.isPresent start.path := by
    rw [Bool.eq_iff_iff, FileTree.isPresent_iff_readText, FileTree.isPresent_iff_readText,
      hread _ (hmem (Nat.succ_pos _))]
  simp only [hpresent, hsame t' hread]

/-- Six refs are read at most to resolve `HEAD`. -/
theorem readsSix_resolveHead (refs : Refs) (t : FileTree) :
    refs.ReadsSix t refs.headStop refs.resolveHead :=
  refs.readsSix t refs.headStop fun present found =>
    if present then found else .error (.refNotFound Layout.headFile)

/-- A branch is followed, and an id has to come of it. -/
theorem resolveBranch_eq (refs : Refs) (t : FileTree) (branch : BranchName) :
    refs.resolveBranch t branch
      = refs.follow t readLimit (refs.branchStop branch).name (refs.branchStop branch).path >>=
        fun found => found.elim (.error (.refNotFound branch.name)) .ok := by
  unfold resolveBranch
  show (refs.follow t readLimit (refs.branchStop branch).name (refs.branchStop branch).path >>= _)
    = _
  cases refs.follow t readLimit (refs.branchStop branch).name (refs.branchStop branch).path with
  | error err => rfl
  | ok found => cases found <;> rfl

/-- Six refs are read at most to resolve a branch. -/
theorem readsSix_resolveBranch (refs : Refs) (t : FileTree) (branch : BranchName) :
    refs.ReadsSix t (refs.branchStop branch) fun t => refs.resolveBranch t branch := by
  simp only [resolveBranch_eq]
  exact refs.readsSix t (refs.branchStop branch) fun _ found =>
    found >>= fun found => found.elim (.error (.refNotFound branch.name)) .ok

/-- The outcomes of resolving a `HEAD` that is there. -/
theorem follows_resolveHead (h : t.isPresent refs.headPath = true) :
    refs.Follows t refs.headStop some (.ok none) (refs.resolveHead t) := by
  have hfollow : refs.resolveHead t
      = refs.follow t readLimit refs.headStop.name refs.headStop.path := if_pos h
  rw [hfollow]
  exact follows_of_follow (fun _ => Iff.rfl) Iff.rfl fun _ _ => Iff.rfl

/-- The outcomes of resolving a branch. -/
theorem follows_resolveBranch (refs : Refs) (t : FileTree) (branch : BranchName) :
    refs.Follows t (refs.branchStop branch) id (.error (.refNotFound branch.name))
      (refs.resolveBranch t branch) := by
  rw [resolveBranch_eq]
  cases hfollow : refs.follow t readLimit (refs.branchStop branch).name
      (refs.branchStop branch).path with
  | error err =>
    have hne : err ≠ .refNotFound branch.name := by
      rintro rfl
      cases isNotFound_of_follow_error hfollow
    refine follows_of_follow ?_ ?_ ?_ <;> rw [hfollow] <;> simp [hne]
  | ok found =>
    cases found with
    | some x => refine follows_of_follow ?_ ?_ ?_ <;> simp [hfollow]
    | none =>
      refine follows_of_follow ?_ ?_ fun err herr => ?_ <;> rw [hfollow]
      · simp
      · simp
      · apply iff_of_false
        · intro h
          cases h
          cases herr
        · intro h
          cases h

/-- How `HEAD` and the branches are resolved, for every content of the file tree. If nothing is at
the path of `HEAD`, that is all there is to say about it. -/
theorem resolve_follows (refs : Refs) (t : FileTree) :
    (t.isPresent refs.headPath = false →
      refs.resolveHead t = .error (.refNotFound Layout.headFile)) ∧
    (t.isPresent refs.headPath = true →
      refs.Follows t refs.headStop some (.ok none) (refs.resolveHead t)) ∧
    refs.ReadsSix t refs.headStop refs.resolveHead ∧
    ∀ branch, refs.Follows t (refs.branchStop branch) id (.error (.refNotFound branch.name))
        (refs.resolveBranch t branch) ∧
      refs.ReadsSix t (refs.branchStop branch) fun t => refs.resolveBranch t branch := by
  refine ⟨fun h => ?_, follows_resolveHead, refs.readsSix_resolveHead t, fun branch =>
    ⟨refs.follows_resolveBranch t branch, refs.readsSix_resolveBranch t branch⟩⟩
  rw [resolveHead, if_neg (Bool.not_eq_true _ ▸ h)]

/-- A `HEAD` five hops away from an id, a branch that is six hops away from it, and one that is
symbolic and names itself. -/
theorem resolve_follows_five :
    let refs : Refs := ⟨⟨"/.git"⟩⟩
    let one : ObjectId := ⟨List.replicate 20 1, rfl⟩
    let far : BranchName := ⟨"far", by decide⟩
    let loop : BranchName := ⟨"loop", by decide⟩
    let nodes : List (Location × Node) :=
      [([".git"], .directory), ([".git", "refs"], .directory),
        ([".git", "refs", "heads"], .directory),
        ([".git", "1"], .file (Refs.branchContent one)),
        ([".git", "2"], .file (Bytes.ofString "ref: 1")),
        ([".git", "3"], .file (Bytes.ofString "ref:  2\n")),
        ([".git", "4"], .file (Bytes.ofString "ref: /.git/3")),
        ([".git", "5"], .file (Bytes.ofString "ref: 4")),
        ([".git", "HEAD"], .file (Bytes.ofString "ref: refs/../5")),
        ([".git", "refs", "heads", "far"], .file (Bytes.ofString "ref: HEAD")),
        ([".git", "refs", "heads", "loop"], .file (Bytes.ofString "ref: refs/heads/loop"))]
    let t := nodes.foldl (fun t e => t.put e.1 e.2) FileTree.empty
    t.isPresent refs.headPath = true ∧ refs.resolveHead t = .ok (some one) ∧
      (∃ n b text, n ≤ 5 ∧ refs.Hops t n refs.headStop b ∧ b.Reads t text ∧
        RefContent.Spells text one) ∧
      refs.resolveBranch t far = .error (.invalidRef "1" .tooManyLevels) ∧
      (∃ b, refs.Hops t 6 (refs.branchStop far) b ∧ b.name = "1") ∧
      refs.resolveBranch t loop = .error (.invalidRef "refs/heads/loop" .tooManyLevels) := by
  intro refs one far loop nodes t
  obtain ⟨hpresent, hhead, hfar, hloop⟩ : t.isPresent refs.headPath = true ∧
      refs.resolveHead t = .ok (some one) ∧
      refs.resolveBranch t far = .error (.invalidRef "1" .tooManyLevels) ∧
      refs.resolveBranch t loop = .error (.invalidRef "refs/heads/loop" .tooManyLevels) := by
    decide +kernel
  obtain ⟨-, hfollows, -, hbranches⟩ := resolve_follows refs t
  exact ⟨hpresent, hhead, ((hfollows hpresent).found_iff one).mp hhead, hfar,
    ((hbranches far).1.tooMany_iff "1").mp hfar, hloop⟩

/-- A file in place of the git directory is in the way of `HEAD`, so that its text cannot be read.
That is not called a fault of the file tree: nothing is there, and so nothing is followed. -/
theorem resolveHead_blocked :
    let refs : Refs := ⟨⟨"/.git"⟩⟩
    let t := FileTree.empty.put [".git"] (.file [])
    refs.Hops t 0 refs.headStop refs.headStop ∧
      t.readText refs.headStop.path = .error .notADirectory ∧
      refs.resolveHead t = .error (.refNotFound Layout.headFile) := by
  exact ⟨.none _, by decide +kernel⟩

end Refs

end ObjectStore
