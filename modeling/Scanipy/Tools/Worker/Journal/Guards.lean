import Scanipy.Tools.Worker.Journal.Lexical
import Scanipy.Tools.Worker.RuntimeWriter

/-! The two size guards of the journal agree: the walk over a frozen value charges exactly the bytes
and values that the scanner counts in its text, and both bound the nesting alike.
-/

namespace Scanipy.Tools.Worker.Journal

open Library Python

/-- A clean value is walked back to itself, and what is left of the budget lacks its bytes and
values; the walk succeeds exactly when the scanner accepts the text of the value under the same
limits.
-/
theorem guards_agree {deep : Nat} {value : Json} (clean : Plain deep 0 value) (limits : Limits)
    : json value = .ok value.dumps.utf8
      ∧ ((∃ result, plain limits.depth 0 (freeze value) ⟨limits.bytes, limits.values⟩ = .ok result)
        ↔ lexical value.dumps.utf8 limits = .ok ())
      ∧ (lexical value.dumps.utf8 limits = .ok ()
        ↔ size value ≤ limits.bytes ∧ Plain limits.depth 0 value ∧ values value ≤ limits.values)
      ∧ ∀ snapshot left,
          plain limits.depth 0 (freeze value) ⟨limits.bytes, limits.values⟩ = .ok (snapshot, left)
          → snapshot = value ∧ limits.bytes = left.bytes + value.dumps.utf8.length
            ∧ limits.values = left.values + values value := by
  have walked (snapshot : Json) (left : Budget)
      (ran : plain limits.depth 0 (freeze value) ⟨limits.bytes, limits.values⟩
        = .ok (snapshot, left))
      : snapshot = value ∧ Plain limits.depth 0 value
        ∧ limits.bytes = left.bytes + size value ∧ limits.values = left.values + values value := by
    obtain ⟨frozen, plain, bytes, counts⟩ := plain_sound (freeze value) ran
    have same := congrArg RuntimePackets.project frozen
    rw [RuntimePackets.project_freeze _ plain.canonical,
      RuntimePackets.project_freeze _ clean.canonical] at same
    subst same
    exact ⟨rfl, plain, bytes, counts⟩
  refine ⟨(json_ok_iff clean.encodable).mpr rfl, ?_, lexical_dumps_iff clean, ?_⟩
  · rw [lexical_dumps_iff clean]
    constructor
    · rintro ⟨⟨snapshot, left⟩, ran⟩
      obtain ⟨_, plain, bytes, counts⟩ := walked snapshot left ran
      exact ⟨by omega, plain, by omega⟩
    · rintro ⟨bytes, plain, counts⟩
      have kept : limits.bytes = limits.bytes - size value + size value := by omega
      have left : limits.values = limits.values - values value + values value := by omega
      exact ⟨(value, ⟨_, _⟩), plain_complete value plain kept left⟩
  · intro snapshot left ran
    obtain ⟨same, _, charged⟩ := walked snapshot left ran
    exact ⟨same, charged⟩

/-- An object with an empty key, within limits that leave nothing over. -/
theorem guards_agree_exact
    : ∃ result, plain 2 0 (freeze (.obj [([], .arr [.int 1, .null])])) ⟨13, 5⟩ = .ok result := by
  have empty : Clean [] := ⟨fun _ listed => absurd listed List.not_mem_nil,
    fun _ listed => absurd listed List.not_mem_nil⟩
  have clean : Plain 2 0 (.obj [([], .arr [.int 1, .null])]) :=
    ⟨by decide, by simp, empty, ⟨by decide, ⟨by decide, by decide⟩, trivial, trivial⟩, trivial⟩
  exact (guards_agree clean ⟨13, 2, 5⟩).2.1.mpr (by decide)

end Scanipy.Tools.Worker.Journal
