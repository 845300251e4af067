import Planar.Buffer
import Mathlib.Control.Monad.Basic
set_option autoImplicit false

/-!
Runs of operations, however they end. A relation between the state before and the state after
is carried through the steps of an operation, so that only its primitive steps need a look.
-/

namespace Planar

theorem check_eq_ok {ε α : Type} {c : Prop} [Decidable c] {e : ε} {f : PUnit → Except ε α}
    {x : Except ε α} {a : α} :
    (if c then (throw e : Except ε PUnit) >>= f else x) = .ok a ↔ ¬ c ∧ x = .ok a := by
  by_cases hc : c
  · rw [if_pos hc]
    exact ⟨fun h => (nomatch h), fun h => absurd hc h.1⟩
  · simp [hc]

theorem eq_ok_of_toOption {ε α : Type} {x : Except ε α} {a : α} (h : x.toOption = some a) :
    x = .ok a := by
  cases x with
  | error e => cases h
  | ok b =>
    cases h
    rfl

theorem guard_eq_ok {ε : Type} {c : Prop} [Decidable c] {e : ε} {u : Unit} :
    (if c then Except.error e else .ok ()) = .ok u ↔ ¬ c := by
  split <;> simp_all

theorem Except.mapError_ok {ε δ α : Type} (f : ε → δ) (a : α) :
    (Except.ok a : Except ε α).mapError f = .ok a := rfl

theorem Except.mapError_error {ε δ α : Type} (f : ε → δ) (e : ε) :
    (Except.error e : Except ε α).mapError f = .error (f e) := rfl

theorem Except.ok_bind {ε α β : Type} (a : α) (f : α → Except ε β) :
    (Except.ok a : Except ε α) >>= f = f a := rfl

theorem Except.check_eq {ε α : Type} {c : Prop} [Decidable c] {e : ε} {f : PUnit → Except ε α}
    {x : Except ε α} :
    (if c then (throw e : Except ε PUnit) >>= f else x) = if c then .error e else x := by
  split <;> rfl

theorem Except.mapError_check {ε δ α : Type} {c : Prop} [Decidable c] {e : ε} {x : Except ε α}
    (r : ε → δ) :
    (if c then Except.error e else x).mapError r = if c then .error (r e) else x.mapError r := by
  split <;> rfl

theorem Except.mapError_bind {ε δ α β : Type} (x : Except ε α) (f : α → β) (r : ε → δ) :
    (x >>= fun a => pure (f a)).mapError r = x.mapError r >>= fun a => pure (f a) := by
  cases x <;> rfl

theorem Except.mapM_mapError {ε δ α β : Type} {f : α → Except ε β} {g : α → Except δ β} {r : ε → δ}
    {as : List α} (h : ∀ a ∈ as, g a = (f a).mapError r) : as.mapM g = (as.mapM f).mapError r := by
  induction as with
  | nil => rfl
  | cons a as ih =>
    obtain ⟨ha, has⟩ := List.forall_mem_cons.mp h
    rw [List.mapM_cons, List.mapM_cons, ha, ih has]
    cases f a with
    | error e => rfl
    | ok b => cases as.mapM f <;> rfl

theorem Except.bind_eq_ok {ε α β : Type} {x : Except ε α} {f : α → Except ε β} {b : β} :
    x >>= f = .ok b ↔ ∃ a, x = .ok a ∧ f a = .ok b := by
  cases x with
  | error e => exact ⟨fun h => (nomatch h), fun ⟨a, h, _⟩ => (nomatch h)⟩
  | ok a =>
    constructor
    · exact fun h => ⟨a, rfl, h⟩
    · intro hgiven
      obtain ⟨b, hb, hf⟩ := hgiven
      cases hb
      exact hf

theorem Stop.lift_eq_ok {α : Type} {check : Except Fault α} {a : α} :
    (liftM check : Except Stop α) = .ok a ↔ check = .ok a := by
  cases check with
  | error why => exact ⟨fun h => (nomatch h), fun h => (nomatch h)⟩
  | ok b =>
    constructor
    · intro h
      cases h
      rfl
    · intro h
      cases h
      rfl

namespace Op

variable {σ α β : Type}

theorem bind_run (x : Op σ α) (f : α → Op σ β) (s : σ) :
    (x >>= f) s = match x s with
      | (.ok a, t) => f a t
      | (.error stop, t) => (.error stop, t) := by
  cases h : x s with
  | mk result t =>
    cases result with
    | ok a => exact bind_of_ok h
    | error stop => exact bind_of_error h

theorem bind_eq_ok {x : Op σ α} {f : α → Op σ β} {s u : σ} {b : β} :
    (x >>= f) s = (.ok b, u) ↔ ∃ a t, x s = (.ok a, t) ∧ f a t = (.ok b, u) := by
  constructor
  · intro h
    cases hx : x s with
    | mk result t =>
      cases result with
      | ok a => exact ⟨a, t, rfl, (bind_of_ok hx).symm.trans h⟩
      | error stop =>
        rw [bind_of_error hx] at h
        cases h
  · intro hgiven
    obtain ⟨a, t, hx, hf⟩ := hgiven
    rw [bind_of_ok hx, hf]

theorem ask_run (question : σ → Except Stop α) (s : σ) : ask question s = (question s, s) := rfl

theorem update_run (f : σ → σ) (s : σ) : update f s = (.ok (), f s) := rfl

theorem throw_run (stop : Stop) (s : σ) : (throw stop : Op σ α) s = (.error stop, s) := rfl

theorem check_run {c : Prop} [Decidable c] (stop : Stop) (f : PUnit → Op σ α) (x : Op σ α) (s : σ) :
    (if c then (throw stop : Op σ PUnit) >>= f else x) s = if c then (.error stop, s) else x s := by
  split <;> rfl

theorem ask_eq_ok {question : σ → Except Stop α} {s t : σ} {a : α}
    (h : ask question s = (.ok a, t)) : question s = .ok a ∧ t = s := by
  unfold ask at h
  exact ⟨congrArg Prod.fst h, (congrArg Prod.snd h).symm⟩

theorem lift_run (check : Except Fault α) (s : σ) :
    (liftM check : Op σ α) s = (check.mapError Stop.fault, s) := by
  cases check <;> rfl

theorem liftStop_run (check : Except Stop α) (s : σ) :
    (liftM check : Op σ α) s = (check, s) := by
  cases check <;> rfl

theorem lift_of_ok {check : Except Fault α} {a : α} (h : check = .ok a) (s : σ) :
    (liftM check : Op σ α) s = (.ok a, s) := by
  rw [h]
  rfl

theorem liftStop_of_ok {check : Except Stop α} {a : α} (h : check = .ok a) (s : σ) :
    (liftM check : Op σ α) s = (.ok a, s) := by
  rw [h]
  rfl

theorem lift_eq_ok {check : Except Fault α} {s t : σ} {a : α}
    (h : (liftM check : Op σ α) s = (.ok a, t)) : check = .ok a ∧ t = s := by
  rw [lift_run] at h
  cases check with
  | error why => cases h
  | ok b =>
    cases h
    exact ⟨rfl, rfl⟩

theorem liftStop_eq_ok {check : Except Stop α} {s t : σ} {a : α}
    (h : (liftM check : Op σ α) s = (.ok a, t)) : check = .ok a ∧ t = s := by
  rw [liftStop_run] at h
  cases h
  exact ⟨rfl, rfl⟩

theorem attempt_state (op : Op σ α) (s : σ) : (op.attempt s).2 = (op s).2 := by
  unfold attempt
  split <;> simp_all

theorem attempt_of_ok {op : Op σ α} {s t : σ} {a : α} (h : op s = (.ok a, t)) :
    op.attempt s = (.ok (.ok a), t) := by
  simp [attempt, h]

theorem attempt_of_fault {op : Op σ α} {s t : σ} {why : Fault}
    (h : op s = (.error (.fault why), t)) : op.attempt s = (.ok (.error why), t) := by
  simp [attempt, h]

theorem mapFault_of_ok {op : Op σ α} {f : Fault → Fault} {s t : σ} {a : α}
    (h : op s = (.ok a, t)) : mapFault f op s = (.ok a, t) := by
  unfold mapFault
  rw [bind_of_ok (attempt_of_ok h)]
  rfl

theorem mapFault_of_fault {op : Op σ α} {f : Fault → Fault} {s t : σ} {why : Fault}
    (h : op s = (.error (.fault why), t)) : mapFault f op s = (.error (.fault (f why)), t) := by
  unfold mapFault
  rw [bind_of_ok (attempt_of_fault h)]
  rfl

theorem orElseUndo_of_ok {op : Op σ α} {undo : σ → σ} {s t : σ} {a : α}
    (h : op s = (.ok a, t)) : orElseUndo op undo s = (.ok a, t) := by
  simp [orElseUndo, h]

theorem orElseUndo_of_error {op : Op σ α} {undo : σ → σ} {s t : σ} {stop : Stop}
    (h : op s = (.error stop, t)) : orElseUndo op undo s = (.error stop, undo t) := by
  simp [orElseUndo, h]

theorem attempt_eq_ok {op : Op σ α} {s t : σ} {a : α} :
    op.attempt s = (.ok (.ok a), t) ↔ op s = (.ok a, t) := by
  constructor
  · intro h
    unfold attempt at h
    split at h
    · rename_i b u hb
      cases h
      exact hb
    · cases h
    · cases h
  · exact attempt_of_ok

theorem mapFault_eq_ok {op : Op σ α} {f : Fault → Fault} {s t : σ} {a : α} :
    mapFault f op s = (.ok a, t) ↔ op s = (.ok a, t) := by
  constructor
  · intro h
    obtain ⟨result, u, hu, h⟩ := bind_eq_ok.mp h
    cases result with
    | error why => cases h
    | ok b =>
      cases h
      exact attempt_eq_ok.mp hu
  · exact mapFault_of_ok

theorem orElseUndo_eq_ok {op : Op σ α} {undo : σ → σ} {s t : σ} {a : α} :
    orElseUndo op undo s = (.ok a, t) ↔ op s = (.ok a, t) := by
  constructor
  · intro h
    unfold orElseUndo at h
    split at h
    · rename_i b u hb
      cases h
      exact hb
    · cases h
  · exact orElseUndo_of_ok

theorem closing_eq_ok {body release : Op σ Unit} {s u : σ} :
    closing body release s = (.ok (), u) ↔
      ∃ t, body s = (.ok (), t) ∧ release t = (.ok (), u) := by
  unfold closing
  constructor
  · intro h
    obtain ⟨done, t, hbody, h⟩ := bind_eq_ok.mp h
    obtain ⟨released, v, hrelease, h⟩ := bind_eq_ok.mp h
    cases done with
    | error why => cases h
    | ok _ =>
      cases released with
      | error why => cases h
      | ok _ =>
        cases h
        exact ⟨t, attempt_eq_ok.mp hbody, attempt_eq_ok.mp hrelease⟩
  · intro hgiven
    obtain ⟨t, hbody, hrelease⟩ := hgiven
    rw [bind_of_ok (attempt_of_ok hbody), bind_of_ok (attempt_of_ok hrelease)]
    rfl

theorem closing_of_fault {body release : Op σ Unit} {s t u : σ} {why : Fault}
    (hb : body s = (.error (.fault why), t)) (hr : release t = (.ok (), u)) :
    closing body release s = (.error (.fault why), u) := by
  unfold closing
  rw [bind_of_ok (attempt_of_fault hb), bind_of_ok (attempt_of_ok hr)]
  rfl

/-- Relations that two runs in a row add up to. -/
class Tracking (R : σ → σ → Prop) : Prop where
  refl : ∀ s, R s s
  trans : ∀ {s t u}, R s t → R t u → R s u

variable {R : σ → σ → Prop} [Tracking R] {s : σ}

theorem ask_related (question : σ → Except Stop α) : R s (ask question s).2 := Tracking.refl s

theorem lift_related (check : Except Fault α) : R s ((liftM check : Op σ α) s).2 := by
  rw [lift_run]
  exact Tracking.refl s

theorem liftStop_related (check : Except Stop α) : R s ((liftM check : Op σ α) s).2 := by
  rw [liftStop_run]
  exact Tracking.refl s

theorem check_related {c : Prop} [Decidable c] {stop : Stop} {f : PUnit → Op σ α} {x : Op σ α}
    (hx : R s (x s).2) : R s ((if c then (throw stop : Op σ PUnit) >>= f else x) s).2 := by
  split
  · exact Tracking.refl s
  · exact hx

theorem bind_related {x : Op σ α} {f : α → Op σ β} (hx : R s (x s).2)
    (hf : ∀ a t, x s = (.ok a, t) → R t (f a t).2) : R s ((x >>= f) s).2 := by
  cases h : x s with
  | mk result t =>
    rw [h] at hx
    cases result with
    | ok a =>
      rw [bind_of_ok h]
      exact Tracking.trans hx (hf a t h)
    | error stop =>
      rw [bind_of_error h]
      exact hx

omit [Tracking R] in
theorem attempt_related {op : Op σ α} (h : R s (op s).2) : R s (op.attempt s).2 := by
  rw [attempt_state]
  exact h

theorem mapFault_related {op : Op σ α} {f : Fault → Fault} (h : R s (op s).2) :
    R s (mapFault f op s).2 := by
  refine bind_related (attempt_related h) fun result t _ => ?_
  cases result <;> exact Tracking.refl t

theorem closing_related {body release : Op σ Unit} (hb : R s (body s).2)
    (hr : ∀ t, R t (release t).2) : R s (closing body release s).2 := by
  -- the release has to be harmless in every state, for the body may end in any
  refine bind_related (attempt_related hb) fun done t _ => ?_
  refine bind_related (attempt_related (hr t)) fun released u _ => ?_
  cases done with
  | error why => exact Tracking.refl u
  | ok _ => cases released <;> exact Tracking.refl u

theorem forM_related {f : α → Op σ PUnit} (hf : ∀ a t, R t (f a t).2) (as : List α) (s : σ) :
    R s (as.forM f s).2 := by
  induction as generalizing s with
  | nil => exact Tracking.refl s
  | cons a as ih => exact bind_related (hf a s) fun _ t _ => ih t

theorem foldlM_related {f : β → α → Op σ β} (hf : ∀ b a t, R t (f b a t).2) (as : List α)
    (b : β) (s : σ) : R s (as.foldlM f b s).2 := by
  induction as generalizing b s with
  | nil => exact Tracking.refl s
  | cons a as ih =>
    rw [List.foldlM_cons]
    exact bind_related (hf b a s) fun c t _ => ih c t

end Op

end Planar
