import Hookfs.Plthook.MachOSafety

/-!
# Which slots of an arm64e image are reported as plain

The indirect symbol table cannot see whether a slot is signed, so on arm64e it
reports all of them as authenticated.  Chained fixups say it for every slot.
The bind opcodes cannot see it either, but report every slot as plain, and the
merge takes their flag.
-/

namespace Hookfs.Plthook.MachO

open Hookfs.Lib Hookfs.Plthook

namespace MachOView

/-- The chained fixups of the image decode the slot as a bind that is not
authenticated. -/
def PlainBind (view : MachOView) (slot : Nat) : Prop :=
  ∃ info blob complement found,
    view.readLoadCommands = .ok info ∧ info.chained = some blob ∧
      view.parseChainedFixups info blob = .ok complement ∧
      found ∈ complement ∧ view.DecodedBind found ∧
      found.slot = slot ∧ found.authenticated = false

/-- The image has no chained fixups, and its bind streams replay to their end
and bind a symbol. -/
def LegacyBinds (view : MachOView) : Prop :=
  ∃ info first rest,
    view.readLoadCommands = .ok info ∧ info.chained = none ∧
      view.parseBindStreams info = .ok (first :: rest)

variable {view : MachOView}

/-- The flag of an import is that of the last import of its slot in the
complement, or else it is the primary's. -/
theorem flag_of_mem_merge {primary complement : List RawImport}
    {found : RawImport}
    (member : found ∈ retainFirst [] (mergeComplement primary complement)) :
    (∃ last ∈ complement, last.slot = found.slot ∧
        found.authenticated = last.authenticated) ∨
      found ∈ primary := by
  rw [retainFirst_mergeComplement] at member
  obtain ⟨old, kept, rfl⟩ := List.mem_map.mp member
  cases merged : lastBy RawImport.slot complement old.slot with
  | some last =>
      left
      refine ⟨last, mem_of_lastBy _ merged, ?_,
        authenticated_refineFlag merged⟩
      rw [slot_refineFlag]
      exact key_eq_of_lastBy _ merged
  | none =>
      right
      have same : refineFlag complement old = old := by
        unfold refineFlag refineBy
        rw [merged]
      rw [same]
      have absent := (lastBy_eq_none_iff _).mp merged
      rcases List.mem_append.mp (mem_of_mem_firstBy _ kept) with here | there
      · exact here
      · exact absurd (List.mem_map_of_mem there) absent

/-- A merged import gives its slot a flag of the complement. -/
theorem exists_mem_merge (primary : List RawImport)
    {complement : List RawImport} {found : RawImport}
    (member : found ∈ complement) :
    ∃ kept ∈ retainFirst [] (mergeComplement primary complement),
      ∃ last ∈ complement, kept.authenticated = last.authenticated := by
  have slots := (merged_of_complement primary complement).union
    complement rfl found.slot
  have there : found.slot ∈ complement.map RawImport.slot :=
    List.mem_map_of_mem member
  obtain ⟨kept, keptMember, same⟩ := List.mem_map.mp (slots.mpr (.inr there))
  rw [← retainFirst_mergeComplement] at keptMember
  refine ⟨kept, keptMember, ?_⟩
  cases merged : lastBy RawImport.slot complement kept.slot with
  | some last =>
      have flags := (merged_of_complement primary complement).flags
        complement rfl kept (retainFirst_mergeComplement _ _ ▸ keptMember)
        last merged
      exact ⟨last, mem_of_lastBy _ merged, flags⟩
  | none =>
      rw [same, lastBy_eq_none_iff] at merged
      exact absurd there merged

/-- On arm64e the imports of the indirect symbol table are never plain. -/
theorem authenticated_of_mem_primary {info : LoadInfo}
    {primary : List RawImport} {found : RawImport}
    (arm64e : view.isArm64e = true)
    (loaded : view.readLoadCommands = .ok info)
    (indirect : view.parseIndirect info = .ok primary)
    (member : found ∈ primary) : found.authenticated = true := by
  have narrow := view.sound_readLoadCommands.value_of_ok loaded
  have all := (view.sound_parseIndirect narrow).value_of_ok indirect
  rw [(all found member).1, arm64e]

theorem parseComplement_of_chained {info : LoadInfo} {blob : Blob}
    (chained : info.chained = some blob) :
    view.parseComplement info = view.parseChainedFixups info blob := by
  unfold parseComplement
  rw [chained]

theorem parseComplement_of_unchained {info : LoadInfo}
    (unchained : info.chained = none) :
    view.parseComplement info = view.parseBindStreams info := by
  unfold parseComplement
  rw [unchained]

/-- A symbol bound by opcodes shows up as plain, without chained fixups. -/
theorem not_legacyBinds_of_plain {result : List RawImport}
    (returned : view.parseImports = .ok result)
    (plain : ∀ found ∈ result, found.authenticated = false →
      view.PlainBind found.slot) :
    ¬view.LegacyBinds := by
  intro legacy
  obtain ⟨info, first, rest, loaded, unchained, replayed⟩ := legacy
  obtain ⟨other, primary, outcome, sameLoad, -, attempted, rfl⟩ :=
    exists_of_parseImports returned
  rw [loaded] at sameLoad
  injection sameLoad with sameInfo
  subst sameInfo
  have complement := Checked.attempt_eq_ok_iff.mp attempted
  rw [parseComplement_of_unchained unchained, replayed] at complement
  cases outcome with
  | error error =>
      cases complement
  | ok merged =>
      injection complement with same
      subst same
      have here : first ∈ first :: rest := List.mem_cons_self
      obtain ⟨kept, member, last, lastMember, flag⟩ :=
        exists_mem_merge primary here
      have narrow := view.sound_readLoadCommands.value_of_ok loaded
      have all := (view.sound_parseBindStreams narrow).value_of_ok replayed
      have unsigned : kept.authenticated = false :=
        flag.trans (all last lastMember).1
      obtain ⟨again, blob, _, _, sameLoad, chained, -⟩ :=
        plain kept member unsigned
      rw [loaded] at sameLoad
      injection sameLoad with sameInfo
      rw [← sameInfo, unchained] at chained
      cases chained

/-- The slot of a complement's import that is plain is a plain bind, if the
complement is not made of bound symbols. -/
theorem plainBind_of_complement {info : LoadInfo}
    {merged : List RawImport} {last : RawImport}
    (unbound : ¬view.LegacyBinds)
    (loaded : view.readLoadCommands = .ok info)
    (complement : view.parseComplement info = .ok merged)
    (member : last ∈ merged) (unsigned : last.authenticated = false) :
    view.PlainBind last.slot := by
  have narrow := view.sound_readLoadCommands.value_of_ok loaded
  cases chained : info.chained with
  | some blob =>
      rw [parseComplement_of_chained chained] at complement
      have decoded := (view.sound_parseChainedFixups info
        (narrow.chained blob chained)).value_of_ok complement
      exact ⟨info, blob, merged, last, loaded, chained, complement, member,
        decoded last member, rfl, unsigned⟩
  | none =>
      rw [parseComplement_of_unchained chained] at complement
      cases merged with
      | nil =>
          cases member
      | cons first rest =>
          exact absurd ⟨info, first, rest, loaded, chained, complement⟩
            unbound

theorem plain_of_not_legacyBinds {result : List RawImport}
    (arm64e : view.isArm64e = true)
    (returned : view.parseImports = .ok result)
    (unbound : ¬view.LegacyBinds) :
    ∀ found ∈ result, found.authenticated = false →
      view.PlainBind found.slot := by
  intro found member unsigned
  obtain ⟨info, primary, outcome, loaded, indirect, attempted, rfl⟩ :=
    exists_of_parseImports returned
  have complement := Checked.attempt_eq_ok_iff.mp attempted
  have signed : found ∉ primary := by
    intro here
    rw [authenticated_of_mem_primary arm64e loaded indirect here] at unsigned
    cases unsigned
  cases outcome with
  | error error =>
      rw [adoptComplement, retainFirst_nil] at member
      exact absurd (mem_of_mem_firstBy _ member) signed
  | ok merged =>
      rcases flag_of_mem_merge member with ⟨last, lastMember, slot, flag⟩ | old
      · rw [← slot]
        exact plainBind_of_complement unbound loaded complement lastMember
          (flag.symm.trans unsigned)
      · exact absurd old signed

/-- On an arm64e image every import that is reported as plain is a plain bind
of the chained fixups, if and only if no symbol is bound by opcodes. -/
theorem plain_imports_iff (view : MachOView) (result : List RawImport)
    (arm64e : view.isArm64e = true)
    (returned : view.parseImports = .ok result) :
    (∀ found ∈ result, found.authenticated = false →
        view.PlainBind found.slot) ↔
      ¬view.LegacyBinds :=
  ⟨not_legacyBinds_of_plain returned,
    plain_of_not_legacyBinds arm64e returned⟩

/-- Without bind opcodes the slot is reported as authenticated. -/
theorem plain_imports_iff_unbound :
    (pointerImage []).toView.parseImports =
        .ok [⟨[], some (.name ['f']), none, 4608, .standard, true⟩] ∧
      ((∀ found ∈ [(⟨[], some (.name ['f']), none, 4608, .standard, true⟩ :
            RawImport)],
          found.authenticated = false →
            (pointerImage []).toView.PlainBind found.slot) ↔
        ¬(pointerImage []).toView.LegacyBinds) :=
  ⟨by decide +kernel,
    plain_imports_iff _ _ (by decide +kernel) (by decide +kernel)⟩

/-- Two bind opcodes make an arm64e slot plain, and report another one as
plain, without any chained fixups. -/
theorem bound_imports_are_plain :
    (pointerImage bindTwice).toView.isArm64e = true ∧
      (pointerImage bindTwice).toView.parseImports =
        .ok [⟨[], some (.name ['f']), none, 4608, .standard, false⟩,
          ⟨[], some (.name ['f']), none, 4616, .standard, false⟩] ∧
      ¬(pointerImage bindTwice).toView.PlainBind 4608 ∧
      ¬(pointerImage bindTwice).toView.PlainBind 4616 := by
  have unchained : ∀ slot, ¬(pointerImage bindTwice).toView.PlainBind slot := by
    intro slot plain
    obtain ⟨info, blob, _, _, loaded, chained, -⟩ := plain
    have header : ((pointerImage bindTwice).toView.readLoadCommands).map
        LoadInfo.chained = .ok none := by
      decide +kernel
    rw [loaded] at header
    injection header with none
    rw [none] at chained
    cases chained
  exact ⟨by decide +kernel, by decide +kernel, unchained _, unchained _⟩

end MachOView

end Hookfs.Plthook.MachO
