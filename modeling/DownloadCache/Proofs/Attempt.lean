/-!
# Attempts in a row

When attempts that are made one after the other succeed.
-/

namespace DownloadCache

set_option autoImplicit false

/-- Two attempts in a row succeed if the first one does and the second one after it. -/
theorem bind_eq_ok_iff {ε α β : Type} {attempt : Except ε α} {next : α → Except ε β}
    {result : β} :
    (attempt >>= next) = .ok result ↔ ∃ value, attempt = .ok value ∧ next value = .ok result := by
  cases attempt <;> simp [Bind.bind, Except.bind]

/-- A check and an attempt behind it succeed if both do. -/
theorem check_bind_eq_ok_iff {ε β : Type} {check : Except ε Unit} {next : Except ε β}
    {result : β} :
    (check >>= fun _ => next) = .ok result ↔ check = .ok () ∧ next = .ok result := by
  cases check <;> simp [Bind.bind, Except.bind]

/-- An attempt with another meaning succeeds if the attempt does. -/
theorem map_eq_ok_iff {ε α β : Type} {attempt : Except ε α} {meaning : α → β} {result : β} :
    attempt.map meaning = .ok result ↔ ∃ value, attempt = .ok value ∧ meaning value = result := by
  cases attempt <;> simp [Except.map]

end DownloadCache
