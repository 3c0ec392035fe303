/-!
# Numbers as indices

A register that chooses one of `n` things by its lowest bits does so by the remainder of its value.
-/

namespace Famicom

/-- The remainder of a number as an index into at least one thing. -/
@[inline] def wrapTo {n : Nat} (i : Nat) : Fin (n + 1) :=
  ⟨i % (n + 1), Nat.mod_lt i n.succ_pos⟩

@[simp] theorem val_wrapTo {n : Nat} (i : Nat) : (wrapTo i : Fin (n + 1)).val = i % (n + 1) :=
  rfl

end Famicom
