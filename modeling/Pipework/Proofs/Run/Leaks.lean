import Pipework.Proofs.Run.Abandon

/-!
# Descriptors that are left over

When a start is over, the parent should have closed every descriptor that its pipes brought. In one
case it has not: if the newest link still holds both ends, and closing its write end fails, then
the read end is passed over, and nobody closes it later. In every other case each descriptor is
closed exactly once, whichever calls fail.

## Main definitions

* `Launch.PassesOver` — where a start stops, the read end of the newest link will be passed over

## Main results

* `Launch.Balanced.count_close_of_given_eq` — if all is given up, every descriptor is closed once
* `Executor.spawn_closes_all_iff` — every descriptor is closed once, unless a read end is passed
  over
-/

namespace Pipework

namespace Launch

variable {w w' : World} {calls cs : List Call} {l : Launch} {d : Nat}

/-- The newest link still holds its write end, and the next close fails. -/
def PassesOver (l : Launch) : Prop := l.newestWriter.isSome ∧ l.world.closeFault?.isSome

/-- Unless a read end is passed over, all is closed that the links hold. -/
theorem given_of_not_passesOver (htidy : Tidy l.links) (h : ¬ l.PassesOver) :
    l.given = l.links.flatMap Link.held := by
  rw [given]
  rcases hlinks : l.links with _ | ⟨link, older⟩
  · rfl
  · rw [hlinks] at htidy
    have hfirst : link.given l.world = link.held := by
      cases hwriter : link.writer with
      | none => exact Link.given_of_writer_none hwriter _
      | some d =>
        have hfine : l.world.closeFault? = none := by
          simpa [PassesOver, newestWriter, hlinks, hwriter] using h
        simp [Link.given, Link.held, hfine]
    rw [Link.givenAll, hfirst, Link.givenAll_of_writersGone htidy.2, List.flatMap_cons]

/-- A read end that is passed over is all that the links hold and that is not closed. -/
theorem exists_passed_over (htidy : Tidy l.links) (h : l.PassesOver) :
    ∃ d, l.newestReader = some d ∧ (l.links.flatMap Link.held).Perm (d :: l.given) := by
  obtain ⟨hwriter, hfailing⟩ := h
  rw [given]
  rcases hlinks : l.links with _ | ⟨link, older⟩
  · simp [newestWriter, hlinks] at hwriter
  · rw [hlinks] at htidy
    have hwriter' : link.writer.isSome := by simpa [newestWriter, hlinks] using hwriter
    obtain ⟨d, hreader⟩ := Option.isSome_iff_exists.1 (htidy.1 hwriter')
    refine ⟨d, by simp [newestReader, hlinks, hreader], ?_⟩
    have hfirst : link.given l.world = link.writer.toList := by
      simp [Link.given, hwriter', hfailing]
    rw [Link.givenAll, hfirst, Link.givenAll_of_writersGone htidy.2, List.flatMap_cons, Link.held,
      hreader, List.append_assoc]
    exact List.perm_middle

namespace Balanced

/-- What a start has brought is closed, or a link shows it. -/
theorem closed_or_shown (h : Balanced w calls l) (hmade : d ∈ calls.flatMap Call.made) :
    .close d ∈ calls ∨ d ∈ l.links.flatMap Link.held := by
  obtain ⟨m, hlower, hupper, heither⟩ := h.leads.mem_made_iff.1 hmade
  have hpipes := h.pipes
  obtain ⟨i, rfl⟩ := Nat.exists_eq_add_of_le hlower
  have hlt : l.links.length - 1 - i < l.links.length := by omega
  have htracks := h.tracks _ i _ (List.getElem?_eq_getElem hlt) (by omega)
  by_cases hclosed : .close d ∈ calls
  · exact .inl hclosed
  · exact .inr (List.mem_flatMap.2
      ⟨_, List.getElem_mem hlt, htracks.mem_held_iff.2 ⟨heither, hclosed⟩⟩)

/-- In a start, a descriptor is closed before the links are given up, or then, or never. -/
theorem mem_close_iff (honProcess : ∀ c ∈ cs, c.isOnProcess) :
    Call.close d ∈ calls ++ l.given.map Call.close ++ cs ↔ .close d ∈ calls ∨ d ∈ l.given := by
  have hnotLater : .close d ∉ cs := fun hmem => honProcess _ hmem
  simp [hnotLater]

/-- All that a start brings is brought before its links are given up. -/
theorem mem_made_iff (honProcess : ∀ c ∈ cs, c.isOnProcess) :
    d ∈ (calls ++ l.given.map Call.close ++ cs).flatMap Call.made ↔
      d ∈ calls.flatMap Call.made := by
  have hcloses : (l.given.map Call.close).flatMap Call.made = [] := by
    simp [Call.made]
  have hlater : cs.flatMap Call.made = [] := by
    refine List.flatMap_eq_nil_iff.2 fun c hmem => ?_
    have := honProcess c hmem
    cases c <;> simp [Call.isOnProcess, Call.made] at this ⊢
  simp [List.flatMap_append, hcloses, hlater]

/-- If all is closed that the links hold, every descriptor is closed once. -/
theorem count_close_of_given_eq (h : Balanced w calls l) (honProcess : ∀ c ∈ cs, c.isOnProcess)
    (hleads : w.Leads (calls ++ l.given.map Call.close ++ cs) w')
    (hall : l.given = l.links.flatMap Link.held)
    (hmade : d ∈ (calls ++ l.given.map Call.close ++ cs).flatMap Call.made) :
    (calls ++ l.given.map Call.close ++ cs).count (.close d) = 1 := by
  rw [mem_made_iff honProcess] at hmade
  rw [hleads.orderly.count_close, if_pos]
  exact (mem_close_iff honProcess).2
    ((h.closed_or_shown hmade).imp_right fun hshown => hall ▸ hshown)

end Balanced

end Launch

/-- After a start every descriptor that its pipes brought is closed exactly once, unless a read end
is passed over where the start stops. No descriptor is closed twice in any case, and only the read
end of the newest link can be left over. -/
theorem Executor.spawn_closes_all_iff (e : Executor) (captured : Bool) (p : Pipeline) (w : World) :
    let l := Launch.stopped (e.capture captured) p.argvs w
    ∃ calls, ((e.spawn captured p).outcome w).2.calls = w.calls ++ calls ∧
      ((∀ d ∈ calls.flatMap Call.made, calls.count (.close d) = 1) ↔ ¬ l.PassesOver) ∧
      ∀ d ∈ calls.flatMap Call.made, calls.count (.close d) ≤ 1 ∧
        (calls.count (.close d) = 0 → l.newestReader = some d) := by
  intro l
  have htidy := Launch.tidy_stopped (e.capture captured) p.argvs w
  obtain ⟨calls, hbalanced⟩ :=
    (Launch.moves_stopped (e.capture captured) p.argvs w).exists_balanced
  obtain ⟨cs, honProcess, hleads⟩ := hbalanced.exists_leads (e.confined_spawn captured w p)
  have hcount := hleads.orderly.count_close
  have hclosed_iff : ∀ d, Call.close d ∈ calls ++ l.given.map Call.close ++ cs ↔
      .close d ∈ calls ∨ d ∈ l.given :=
    fun d => Launch.Balanced.mem_close_iff honProcess
  refine ⟨_, hleads.record, ⟨fun hall hpasses => ?_, fun hfine d hmade => ?_⟩, fun d hmade =>
    ⟨?_, fun hzero => ?_⟩⟩
  · -- The read end that is passed over was brought, and it is never closed.
    obtain ⟨d, -, hperm⟩ := Launch.exists_passed_over htidy hpasses
    have hnotGiven : d ∉ l.given := (List.nodup_cons.1 (hperm.nodup_iff.1 hbalanced.nodup_shown)).1
    have hheld := hbalanced.held_of_shows (List.mem_flatMap.1 (hperm.mem_iff.2 List.mem_cons_self))
    have honce := hall d ((Launch.Balanced.mem_made_iff honProcess).2 hheld.1)
    rw [hcount d, if_neg fun hclosed =>
      ((hclosed_iff d).1 hclosed).elim hheld.2 hnotGiven] at honce
    exact Nat.zero_ne_one honce
  · exact hbalanced.count_close_of_given_eq honProcess hleads
      (Launch.given_of_not_passesOver htidy hfine) hmade
  · rw [hcount d]
    split_ifs <;> decide
  · -- What is never closed is still shown where the start stops, and not given up after that.
    have hnever : ¬ (.close d ∈ calls ∨ d ∈ l.given) := by
      rw [← hclosed_iff]
      intro hclosed
      rw [hcount d, if_pos hclosed] at hzero
      exact Nat.one_ne_zero hzero
    obtain ⟨hnotBefore, hnotGiven⟩ := not_or.1 hnever
    have hmade' := (Launch.Balanced.mem_made_iff honProcess).1 hmade
    have hshown := (hbalanced.closed_or_shown hmade').resolve_left hnotBefore
    by_cases hpasses : l.PassesOver
    · obtain ⟨d', hreader, hperm⟩ := Launch.exists_passed_over htidy hpasses
      obtain rfl := (List.mem_cons.1 (hperm.mem_iff.1 hshown)).resolve_right hnotGiven
      exact hreader
    · rw [← Launch.given_of_not_passesOver htidy hpasses] at hshown
      exact absurd hshown hnotGiven

/-- The first of two programs is missing, and the first close fails. The read end of the link
between them was passed to no process, and it is not closed either. -/
theorem Executor.spawn_leaves_read_end :
    let w : World := { machine := .ofScript {
      closeFailures := [(0, ⟨.system, "close"⟩)]
      processes := [{ refusal := some ⟨.notFound, "a"⟩ }] } }
    let calls := ((({} : Executor).spawn true ⟨[⟨"a", []⟩, ⟨"b", []⟩]⟩).outcome w).2.calls
    calls = [.pipe 10 11, .start ["a"] .inherited (.descriptor 11) .captured, .close 11] ∧
      ¬ ∀ d ∈ calls.flatMap Call.made, calls.count (.close d) = 1 := by
  intro w calls
  have hrun : calls =
      [.pipe 10 11, .start ["a"] .inherited (.descriptor 11) .captured, .close 11] := by
    decide +kernel
  refine ⟨hrun, fun hall => ?_⟩
  have honce := hall 10 (by rw [hrun]; decide)
  rw [hrun] at honce
  exact absurd honce (by decide)

end Pipework
