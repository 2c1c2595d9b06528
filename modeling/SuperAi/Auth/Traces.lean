import SuperAi.Auth.AuthService
import SuperAi.Foundations.SingleUse

/-! # Calls beside their requests

A call that has ended does not say any more what it was asked for. The calls are listed in the order
of the events that started them, so that the calls of a run can be read beside their requests.
-/
namespace SuperAi.Auth
open SuperAi.Foundations
set_option autoImplicit false

/-- The calls as they were when they started. -/
def starts (es : List AuthEvent) : List AuthCall := es.filterMap AuthEvent.started

/-- Each call beside its start. -/
def AuthState.traces (s : AuthState) (es : List AuthEvent) : List (AuthCall × AuthCall) :=
  (starts es).zip s.calls

theorem starts_append (es es' : List AuthEvent) : starts (es ++ es') = starts es ++ starts es' :=
  List.filterMap_append

theorem starts_of_none {e : AuthEvent} (h : e.started = none) : starts [e] = [] := by
  simp [starts, h]

theorem starts_of_some {e : AuthEvent} {call : AuthCall} (h : e.started = some call) :
    starts [e] = [call] := by
  simp [starts, h]

/-- The calls are those that the events have started. -/
def AuthState.Traced (s : AuthState) (es : List AuthEvent) : Prop := (starts es).length = s.calls.length

theorem zip_set {α β : Type} (as : List α) (bs : List β) (i : ℕ) (a : α) (b : β) (ha : as[i]? = some a) :
    as.zip (bs.set i b) = (as.zip bs).set i (a, b) := by
  induction as generalizing bs i with
  | nil => simp at ha
  | cons a' as ih =>
    cases bs with
    | nil => simp
    | cons b' bs =>
      cases i with
      | zero =>
        obtain rfl : a' = a := by simpa using ha
        rfl
      | succ i =>
        have hrest := ih bs i (by simpa using ha)
        simp only [List.set_cons_succ, List.zip_cons_cons, hrest]

variable (scheme : SignatureScheme) (cfg : AuthConfig)

theorem traces_cases {s s' : AuthState} {es : List AuthEvent} {e : AuthEvent} (htraced : s.Traced es)
    (h : (authSystem scheme cfg).step s e = some s') :
    s'.Traced (es ++ [e]) ∧
      ((∃ call, e.started = some call ∧ s'.db = s.db ∧
          s'.traces (es ++ [e]) = s.traces es ++ [(call, call)]) ∨
        (e.started = none ∧ ∃ i start call call', (s.traces es)[i]? = some (start, call) ∧
          Performs scheme cfg s.db i call e s'.db call' ∧
          s'.traces (es ++ [e]) = (s.traces es).set i (start, call'))) := by
  unfold AuthState.Traced at htraced
  rcases step_cases scheme cfg h with ⟨call, hstart, rfl⟩ | ⟨hstart, i, call, db', call', hcall, hperforms, rfl⟩
  · refine ⟨?_, .inl ⟨call, hstart, rfl, ?_⟩⟩
    · simp [AuthState.Traced, starts_append, starts_of_some hstart, htraced]
    · simp only [AuthState.traces, starts_append, starts_of_some hstart]
      rw [List.zip_append htraced]
      rfl
  · have hstarts : starts (es ++ [e]) = starts es := by
      rw [starts_append, starts_of_none hstart, List.append_nil]
    have hlt : i < (starts es).length := htraced ▸ (List.getElem?_eq_some_iff.mp hcall).1
    have hget : (starts es)[i]? = some (starts es)[i] := List.getElem?_eq_getElem hlt
    refine ⟨?_, .inr ⟨hstart, i, (starts es)[i], call, call', ?_, hperforms, ?_⟩⟩
    · rw [AuthState.Traced, hstarts, List.length_set, htraced]
    · rw [AuthState.traces, List.getElem?_zip_eq_some]
      exact ⟨hget, hcall⟩
    · rw [AuthState.traces, hstarts, zip_set _ _ _ _ _ hget]
      rfl

end SuperAi.Auth
