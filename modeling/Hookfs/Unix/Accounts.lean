import Hookfs.Unix.Traffic

/-!
# The accounts of the threads

Every strong count is that of the entries and the clones, every lock is some
thread's, and every open descriptor is with the program or with one call.
-/

namespace Hookfs.Unix

open Hookfs.Lib Hookfs.Vfs Hookfs.Router

variable {State Stream : Type}

/-! ## The counts -/

/-- The strong counts of the live `Arc`s. -/
def strongs (arcs : Store Nat (Arc Stream)) : Nat → Nat :=
  fun arc => (arcs.lookup arc).elim 0 Arc.strong

/-- The `Arc`s that the entries of a registry are. -/
def registered (files : Store Nat Nat) : Nat → Nat :=
  Store.total (fun _ arc => oneOf arc) files

/-- Every strong count is accounted for by the registry and by owners outside
of it, and the streams dropped are those of the `Arc`s that are gone. -/
structure Counted (files : Store Nat Nat) (arcs : Store Nat (Arc Stream))
    (nextArc : Nat) (dropped : List Nat) (outside : Nat → Nat) : Prop where
  balance : ∀ arc, strongs arcs arc = registered files arc + outside arc
  alive : ∀ arc content, arcs.lookup arc = some content → 0 < content.strong
  fresh : ∀ arc, nextArc ≤ arc → arcs.lookup arc = none
  gone : ∀ arc, arc ∈ dropped ↔ arc < nextArc ∧ arcs.lookup arc = none
  once : dropped.Nodup
  single : ∀ arc, registered files arc ≤ 1

/-- A locked file is locked by one. -/
def LocksAgree (arcs : Store Nat (Arc Stream)) (locks : Nat → Nat) : Prop :=
  ∀ arc content, arcs.lookup arc = some content →
    locks arc = if content.locked then 1 else 0

/-- Every open descriptor is with the program or with one call, and those that
are registered are with the program. -/
structure Kept (files : Store Nat Nat) (descriptors owned : Finset Nat)
    (pending : Nat → Nat) : Prop where
  registered : ∀ fd arc, files.lookup fd = some arc → fd ∈ owned
  once : ∀ fd, pending fd + (if fd ∈ owned then 1 else 0) =
    if fd ∈ descriptors then 1 else 0

/-- The invariant of the threads together. -/
structure Sound (traffic : Traffic State Stream) : Prop where
  counted : Counted traffic.files traffic.arcs traffic.nextArc
    traffic.dropped (holding Stage.arcs traffic.stages)
  locks : LocksAgree traffic.arcs (holding Stage.locks traffic.stages)
  kept : Kept traffic.files traffic.descriptors traffic.owned
    (holding Stage.fds traffic.stages)

section Arcs

variable {traffic : Traffic State Stream} {outside : Nat → Nat} {arc : Nat}
  {content next : Arc Stream} {arcs : Store Nat (Arc Stream)}
  {files : Store Nat Nat} {nextArc : Nat} {dropped : List Nat}

theorem strongs_insert (arcs : Store Nat (Arc Stream)) (arc other : Nat)
    (content : Arc Stream) :
    strongs (arcs.insert arc content) other =
      if other = arc then content.strong else strongs arcs other := by
  unfold strongs
  by_cases same : other = arc
  · subst same
    rw [AList.lookup_insert, if_pos rfl]
    rfl
  · rw [AList.lookup_insert_ne same, if_neg same]

theorem strongs_erase (arcs : Store Nat (Arc Stream)) (arc other : Nat) :
    strongs (arcs.erase arc) other =
      if other = arc then 0 else strongs arcs other := by
  unfold strongs
  by_cases same : other = arc
  · subst same
    rw [AList.lookup_erase, if_pos rfl]
    rfl
  · rw [AList.lookup_erase_ne same, if_neg same]

theorem strongs_of_lookup (found : arcs.lookup arc = some content) :
    strongs arcs arc = content.strong := by
  unfold strongs
  rw [found]
  rfl

/-- What somebody has an `Arc` of is live. -/
theorem Counted.live
    (counted : Counted files arcs nextArc dropped outside)
    (held : 0 < registered files arc + outside arc) :
    ∃ content, arcs.lookup arc = some content := by
  have balance := counted.balance arc
  cases found : arcs.lookup arc with
  | none =>
      unfold strongs at balance
      rw [found, Option.elim_none] at balance
      omega
  | some content =>
      exact ⟨content, rfl⟩

/-- Another count, with the rest of the entry as it may be. -/
theorem Counted.put
    (counted : Counted files arcs nextArc dropped outside)
    (found : arcs.lookup arc = some content) (alive : 0 < next.strong)
    {others : Nat → Nat}
    (balance : ∀ other, (if other = arc then next.strong
      else strongs arcs other) = registered files other + others other) :
    Counted files (arcs.insert arc next) nextArc dropped others := by
  refine ⟨fun other => ?_, fun other stored here => ?_,
    fun other beyond => ?_, fun other => ?_, counted.once, counted.single⟩
  · rw [strongs_insert]
    exact balance other
  · by_cases same : other = arc
    · subst same
      rw [AList.lookup_insert] at here
      rw [← Option.some.inj here]
      exact alive
    · rw [AList.lookup_insert_ne same] at here
      exact counted.alive other stored here
  · have different : other ≠ arc := by
      intro same
      subst same
      rw [counted.fresh other beyond] at found
      cases found
    rw [AList.lookup_insert_ne different]
    exact counted.fresh other beyond
  · rw [counted.gone other]
    by_cases same : other = arc
    · subst same
      rw [AList.lookup_insert, found]
      exact iff_of_false (fun both => nomatch both.2)
        (fun both => nomatch both.2)
    · rw [AList.lookup_insert_ne same]

/-- The same count. -/
theorem Counted.same
    (counted : Counted files arcs nextArc dropped outside)
    (found : arcs.lookup arc = some content)
    (strong : next.strong = content.strong) :
    Counted files (arcs.insert arc next) nextArc dropped outside := by
  refine counted.put found ?_ fun other => ?_
  · rw [strong]
    exact counted.alive arc content found
  · rw [← counted.balance other]
    split
    · next here =>
      rw [here, strong, strongs_of_lookup found]
    · rfl

theorem Counted.clone
    (counted : Counted traffic.files traffic.arcs traffic.nextArc
      traffic.dropped outside)
    (found : traffic.arcs.lookup arc = some content) :
    Counted (traffic.cloneArc arc).files (traffic.cloneArc arc).arcs
      (traffic.cloneArc arc).nextArc (traffic.cloneArc arc).dropped
      (outside + oneOf arc) := by
  unfold Traffic.cloneArc
  rw [found]
  refine counted.put found (Nat.succ_pos _) fun other => ?_
  have balance := counted.balance other
  rw [Pi.add_apply, ← Nat.add_assoc, ← balance]
  by_cases here : other = arc
  · subst here
    rw [if_pos rfl, oneOf_self, strongs_of_lookup found]
  · rw [if_neg here, oneOf_of_ne here, Nat.add_zero]

theorem Counted.drop (drop : Stream → State → State)
    (counted : Counted traffic.files traffic.arcs traffic.nextArc
      traffic.dropped (outside + oneOf arc)) :
    Counted (traffic.dropArc drop arc).files (traffic.dropArc drop arc).arcs
      (traffic.dropArc drop arc).nextArc (traffic.dropArc drop arc).dropped
      outside := by
  have balance := counted.balance
  simp only [Pi.add_apply] at balance
  have here := balance arc
  rw [oneOf_self] at here
  obtain ⟨content, found⟩ : ∃ content,
      traffic.arcs.lookup arc = some content := by
    refine counted.live ?_
    rw [Pi.add_apply, oneOf_self]
    omega
  rw [strongs_of_lookup found] at here
  unfold Traffic.dropArc
  rw [found]
  simp only
  split
  · next last =>
    refine ⟨fun other => ?_, fun other stored kept => ?_,
      fun other beyond => ?_, fun other => ?_, ?_, counted.single⟩
    · rw [strongs_erase]
      by_cases same : other = arc
      · subst same
        rw [if_pos rfl]
        change 0 = registered traffic.files other + outside other
        omega
      · rw [if_neg same, balance other, oneOf_of_ne same, add_zero]
    · by_cases same : other = arc
      · subst same
        rw [AList.lookup_erase] at kept
        cases kept
      · rw [AList.lookup_erase_ne same] at kept
        exact counted.alive other stored kept
    · by_cases same : other = arc
      · subst same
        exact AList.lookup_erase _ _
      · rw [AList.lookup_erase_ne same]
        exact counted.fresh other beyond
    · rw [List.mem_append, List.mem_singleton, counted.gone other]
      by_cases same : other = arc
      · subst same
        rw [AList.lookup_erase]
        refine iff_of_true (.inr rfl) ⟨?_, rfl⟩
        refine Nat.lt_of_not_le fun beyond => ?_
        rw [counted.fresh other beyond] at found
        cases found
      · rw [AList.lookup_erase_ne same]
        exact or_iff_left same
    · refine counted.once.append (List.nodup_singleton arc) ?_
      intro other member single
      rw [List.mem_singleton] at single
      subst single
      have gone := ((counted.gone _).mp member).2
      rw [found] at gone
      cases gone
  · next more =>
    refine counted.put found ?_ fun other => ?_
    · change 0 < content.strong - 1
      omega
    · by_cases same : other = arc
      · subst same
        rw [if_pos rfl]
        change content.strong - 1 = _
        omega
      · rw [if_neg same, balance other, oneOf_of_ne same, add_zero]

/-- A new `Arc` goes into the registry; nothing is displaced. -/
theorem Counted.insertFile (drop : Stream → State → State)
    (file : OpenFile Stream) {fd : Nat}
    (counted : Counted traffic.files traffic.arcs traffic.nextArc
      traffic.dropped outside)
    (free : traffic.files.lookup fd = none) :
    Counted (traffic.insertFile drop fd file).files
      (traffic.insertFile drop fd file).arcs
      (traffic.insertFile drop fd file).nextArc
      (traffic.insertFile drop fd file).dropped outside := by
  have unused := counted.fresh traffic.nextArc (Nat.le_refl _)
  have nothing : strongs traffic.arcs traffic.nextArc = 0 := by
    unfold strongs
    rw [unused]
    rfl
  have entered : ∀ other,
      registered (traffic.files.insert fd traffic.nextArc) other =
        oneOf traffic.nextArc other + registered traffic.files other := by
    intro other
    unfold registered
    rw [Store.total_insert_of_none _ free]
    rfl
  unfold Traffic.insertFile
  rw [free]
  refine ⟨fun other => ?_, fun other stored kept => ?_,
    fun other beyond => ?_, fun other => ?_, counted.once, fun other => ?_⟩
  · have balance := counted.balance other
    change strongs (traffic.arcs.insert traffic.nextArc _) other =
      registered (traffic.files.insert fd traffic.nextArc) other +
        outside other
    rw [strongs_insert, entered]
    by_cases same : other = traffic.nextArc
    · subst same
      rw [nothing] at balance
      rw [if_pos rfl, oneOf_self, Nat.add_assoc, ← balance]
    · rw [if_neg same, oneOf_of_ne same, Nat.zero_add]
      exact balance
  · by_cases same : other = traffic.nextArc
    · subst same
      rw [AList.lookup_insert] at kept
      rw [← Option.some.inj kept]
      exact Nat.one_pos
    · rw [AList.lookup_insert_ne same] at kept
      exact counted.alive other stored kept
  · have different : other ≠ traffic.nextArc := Nat.ne_of_gt beyond
    rw [AList.lookup_insert_ne different]
    exact counted.fresh other (Nat.le_of_lt beyond)
  · rw [counted.gone other]
    by_cases same : other = traffic.nextArc
    · subst same
      rw [AList.lookup_insert]
      exact iff_of_false (fun both => Nat.lt_irrefl _ both.1)
        (fun both => nomatch both.2)
    · rw [AList.lookup_insert_ne same]
      refine and_congr_left fun _ => ?_
      change other < traffic.nextArc ↔ other < traffic.nextArc + 1
      omega
  · change registered (traffic.files.insert fd traffic.nextArc) other ≤ 1
    rw [entered]
    by_cases same : other = traffic.nextArc
    · have balance := counted.balance other
      rw [same, nothing] at balance
      rw [same, oneOf_self]
      omega
    · rw [oneOf_of_ne same, Nat.zero_add]
      exact counted.single other

/-- An entry is taken out, and its `Arc` is with somebody else. -/
theorem Counted.takeFile {fd : Nat}
    (counted : Counted files arcs nextArc dropped outside)
    (found : files.lookup fd = some arc) :
    Counted (files.erase fd) arcs nextArc dropped
      (outside + oneOf arc) := by
  have split : ∀ other, registered files other =
      oneOf arc other + registered (files.erase fd) other := by
    intro other
    unfold registered
    rw [Store.total_erase_of_lookup _ found]
    rfl
  refine ⟨fun other => ?_, counted.alive, counted.fresh, counted.gone,
    counted.once, fun other => ?_⟩
  · rw [counted.balance other, split, Pi.add_apply]
    omega
  · have less := counted.single other
    rw [split] at less
    omega

/-- An entry refers to a live `Arc`. -/
theorem Counted.entry_live {fd : Nat}
    (counted : Counted files arcs nextArc dropped outside)
    (found : files.lookup fd = some arc) :
    ∃ content, arcs.lookup arc = some content := by
  have split : registered files arc =
      oneOf arc arc + registered (files.erase fd) arc := by
    unfold registered
    rw [Store.total_erase_of_lookup _ found]
    rfl
  refine counted.live ?_
  rw [split, oneOf_self]
  omega

end Arcs

/-! ## The locks -/

section Locks

variable {arcs : Store Nat (Arc Stream)} {locks others : Nat → Nat}
  {arc : Nat} {content next : Arc Stream}

/-- The entry of one file changes, and its lock with it. -/
theorem LocksAgree.put (agree : LocksAgree arcs locks)
    (here : others arc = if next.locked then 1 else 0)
    (elsewhere : ∀ other, other ≠ arc → others other = locks other) :
    LocksAgree (arcs.insert arc next) others := by
  intro other stored found
  by_cases same : other = arc
  · subst same
    rw [AList.lookup_insert] at found
    rw [← Option.some.inj found]
    exact here
  · rw [AList.lookup_insert_ne same] at found
    rw [elsewhere other same]
    exact agree other stored found

theorem LocksAgree.erase (agree : LocksAgree arcs locks) :
    LocksAgree (arcs.erase arc) locks := by
  intro other stored found
  by_cases same : other = arc
  · subst same
    rw [AList.lookup_erase] at found
    cases found
  · rw [AList.lookup_erase_ne same] at found
    exact agree other stored found

/-- Only the count or the stream of a file changes. -/
theorem LocksAgree.same (agree : LocksAgree arcs locks)
    (found : arcs.lookup arc = some content)
    (locked : next.locked = content.locked) :
    LocksAgree (arcs.insert arc next) locks := by
  refine agree.put ?_ fun _ _ => rfl
  rw [locked]
  exact agree arc content found

theorem LocksAgree.cloneArc {traffic : Traffic State Stream}
    (agree : LocksAgree traffic.arcs locks) :
    LocksAgree (traffic.cloneArc arc).arcs locks := by
  unfold Traffic.cloneArc
  split
  · exact agree
  · next content found =>
    exact agree.same found rfl

theorem LocksAgree.dropArc {traffic : Traffic State Stream}
    (drop : Stream → State → State)
    (agree : LocksAgree traffic.arcs locks) :
    LocksAgree (traffic.dropArc drop arc).arcs locks := by
  unfold Traffic.dropArc
  split
  · exact agree
  · next content found =>
    split
    · exact agree.erase
    · exact agree.same found rfl

theorem LocksAgree.insertFile {traffic : Traffic State Stream}
    (drop : Stream → State → State) (fd : Nat) (file : OpenFile Stream)
    (agree : LocksAgree traffic.arcs locks)
    (free : locks traffic.nextArc = 0) :
    LocksAgree (traffic.insertFile drop fd file).arcs locks := by
  have placed : LocksAgree
      (traffic.arcs.insert traffic.nextArc ⟨1, file, false⟩) locks :=
    agree.put free fun _ _ => rfl
  unfold Traffic.insertFile
  simp only
  split
  · exact placed
  · exact LocksAgree.dropArc drop placed

end Locks

/-! ## The descriptors -/

section Descriptors

variable {files : Store Nat Nat} {descriptors owned : Finset Nat}
  {pending others : Nat → Nat} {fd : Nat}

/-- An open descriptor that the program does not have is with one call. -/
theorem Kept.pending_eq (kept : Kept files descriptors owned pending)
    (taken : 0 < pending fd) : fd ∈ descriptors ∧ fd ∉ owned := by
  have once := kept.once fd
  by_cases program : fd ∈ owned
  · rw [if_pos program] at once
    split at once
    · omega
    · omega
  · refine ⟨?_, program⟩
    rw [if_neg program] at once
    by_contra closed
    rw [if_neg closed] at once
    omega

theorem Kept.open_of_owned (kept : Kept files descriptors owned pending)
    (program : fd ∈ owned) : fd ∈ descriptors := by
  have once := kept.once fd
  rw [if_pos program] at once
  by_contra closed
  rw [if_neg closed] at once
  omega

/-- A closed descriptor is with nobody. -/
theorem Kept.closed (kept : Kept files descriptors owned pending)
    (closed : fd ∉ descriptors) : pending fd = 0 ∧ fd ∉ owned := by
  have once := kept.once fd
  rw [if_neg closed] at once
  refine ⟨by omega, fun program => ?_⟩
  rw [if_pos program] at once
  omega

/-- A closed descriptor is not registered. -/
theorem Kept.free_of_not_owned (kept : Kept files descriptors owned pending)
    (program : fd ∉ owned) : files.lookup fd = none := by
  cases found : files.lookup fd with
  | none =>
      rfl
  | some arc =>
      exact absurd (kept.registered fd arc found) program

/-- The kernel opens a descriptor for a call. -/
theorem Kept.fetch (kept : Kept files descriptors owned pending)
    (closed : fd ∉ descriptors) :
    Kept files (insert fd descriptors) owned (pending + oneOf fd) := by
  obtain ⟨nobody, program⟩ := kept.closed closed
  refine ⟨kept.registered, fun other => ?_⟩
  have once := kept.once other
  rw [Pi.add_apply]
  by_cases same : other = fd
  · subst same
    rw [oneOf_self, nobody, if_neg program,
      if_pos (Finset.mem_insert_self _ _)]
  · rw [oneOf_of_ne same, Nat.add_zero, once]
    simp only [Finset.mem_insert, same, false_or]

/-- A call gives its descriptor to the program. -/
theorem Kept.give
    (kept : Kept files descriptors owned (pending + oneOf fd)) :
    Kept files descriptors (insert fd owned) pending := by
  have taken : 0 < (pending + oneOf fd) fd := by
    rw [Pi.add_apply, oneOf_self]
    omega
  obtain ⟨there, program⟩ := kept.pending_eq taken
  refine ⟨fun other arc found =>
    Finset.mem_insert_of_mem (kept.registered other arc found),
    fun other => ?_⟩
  have once := kept.once other
  rw [Pi.add_apply] at once
  by_cases same : other = fd
  · subst same
    rw [oneOf_self, if_neg program, if_pos there] at once
    rw [if_pos (Finset.mem_insert_self _ _), if_pos there]
    exact once
  · rw [oneOf_of_ne same, Nat.add_zero] at once
    rw [← once]
    simp only [Finset.mem_insert, same, false_or]

/-- The program gives a descriptor to a call. -/
theorem Kept.takeBack (kept : Kept files descriptors owned pending)
    (program : fd ∈ owned) (free : files.lookup fd = none) :
    Kept files descriptors (owned.erase fd) (pending + oneOf fd) := by
  refine ⟨fun other arc found => ?_, fun other => ?_⟩
  · refine Finset.mem_erase.mpr ⟨fun same => ?_,
      kept.registered other arc found⟩
    subst same
    rw [free] at found
    cases found
  · have once := kept.once other
    rw [Pi.add_apply, ← once]
    by_cases same : other = fd
    · subst same
      rw [if_pos program, oneOf_self, if_neg (Finset.notMem_erase _ _)]
    · rw [oneOf_of_ne same]
      simp only [Finset.mem_erase, ne_eq, same, not_false_eq_true, true_and,
        Nat.add_zero]

/-- A call closes its descriptor. -/
theorem Kept.close (kept : Kept files descriptors owned (pending + oneOf fd)) :
    Kept files (descriptors.erase fd) owned pending := by
  have taken : 0 < (pending + oneOf fd) fd := by
    rw [Pi.add_apply, oneOf_self]
    omega
  obtain ⟨there, program⟩ := kept.pending_eq taken
  refine ⟨kept.registered, fun other => ?_⟩
  have once := kept.once other
  rw [Pi.add_apply] at once
  by_cases same : other = fd
  · subst same
    rw [oneOf_self, if_neg program, if_pos there] at once
    rw [if_neg program, if_neg (Finset.notMem_erase _ _)]
    omega
  · rw [oneOf_of_ne same, Nat.add_zero] at once
    rw [once]
    simp only [Finset.mem_erase, ne_eq, same, not_false_eq_true, true_and]

/-- A file is registered under a descriptor that the program is given. -/
theorem Kept.insert (kept : Kept files descriptors owned pending)
    (arc : Nat) (program : fd ∈ owned) :
    Kept (files.insert fd arc) descriptors owned pending := by
  refine ⟨fun other held found => ?_, kept.once⟩
  by_cases same : other = fd
  · subst same
    exact program
  · rw [AList.lookup_insert_ne same] at found
    exact kept.registered other held found

theorem Kept.erase (kept : Kept files descriptors owned pending) :
    Kept (files.erase fd) descriptors owned pending := by
  refine ⟨fun other held found => ?_, kept.once⟩
  by_cases same : other = fd
  · subst same
    rw [AList.lookup_erase] at found
    cases found
  · rw [AList.lookup_erase_ne same] at found
    exact kept.registered other held found

end Descriptors

end Hookfs.Unix
