import Planar.Proofs.Operation
set_option autoImplicit false

/-!
Crashes of operations. A crash goes through every combinator, and a loop crashes at the first element
that it does not get past.
-/

namespace Planar

/-! ### Checks -/

namespace Stop

variable {α β : Type}

theorem ok_or_fault {x : Except Stop α} (h : x ≠ .error .crash) :
    (∃ a, x = .ok a) ∨ ∃ why, x = .error (.fault why) := by
  cases x with
  | ok a => exact .inl ⟨a, rfl⟩
  | error stop =>
    cases stop with
    | fault why => exact .inr ⟨why, rfl⟩
    | crash => exact absurd rfl h

theorem lift_ne_crash (check : Except Fault α) : (liftM check : Except Stop α) ≠ .error .crash := by
  cases check <;> exact nofun

theorem ofOption_ne_fault (o : Option α) (why : Fault) : Stop.ofOption o ≠ .error (.fault why) := by
  cases o <;> exact nofun

variable {stop : Stop}

theorem bind_ne_error {x : Except Stop α} {f : α → Except Stop β} (hx : x ≠ .error stop)
    (hf : ∀ a, x = .ok a → f a ≠ .error stop) : x >>= f ≠ .error stop := by
  cases x with
  | ok a => exact hf a rfl
  | error other => exact fun h => hx (congrArg Except.error (Except.error.inj h))

theorem foldlM_ne_error {f : β → α → Except Stop β} (as : List α)
    (hf : ∀ b, ∀ a ∈ as, f b a ≠ .error stop) (b : β) : as.foldlM f b ≠ .error stop := by
  induction as generalizing b with
  | nil => exact nofun
  | cons a as ih =>
    rw [List.foldlM_cons]
    exact bind_ne_error (hf b a List.mem_cons_self) fun c _ =>
      ih (fun d e he => hf d e (List.mem_cons_of_mem a he)) c

theorem mapM_ne_error {f : α → Except Stop β} (as : List α) (hf : ∀ a ∈ as, f a ≠ .error stop) :
    as.mapM f ≠ .error stop := by
  induction as with
  | nil => exact nofun
  | cons a as ih =>
    rw [List.mapM_cons]
    exact bind_ne_error (hf a List.mem_cons_self) fun b _ =>
      bind_ne_error (ih fun c hc => hf c (List.mem_cons_of_mem a hc)) fun _ _ => nofun

end Stop

/-! ### Operations -/

namespace Op

variable {σ α β : Type}

/-- The run stops short, and there is no fault to handle. -/
def Crashes (op : Op σ α) (s : σ) : Prop := (op s).1 = .error .crash

instance (op : Op σ α) (s : σ) : Decidable (op.Crashes s) :=
  match h : (op s).1 with
  | .ok _ => .isFalse fun hc => nomatch h.symm.trans hc
  | .error (.fault _) => .isFalse fun hc => nomatch h.symm.trans hc
  | .error .crash => .isTrue h

theorem not_crashes_of_ok {op : Op σ α} {s t : σ} {a : α} (h : op s = (.ok a, t)) :
    ¬ op.Crashes s := by
  simp [Crashes, h]

theorem not_crashes_of_fault {op : Op σ α} {s t : σ} {why : Fault}
    (h : op s = (.error (.fault why), t)) : ¬ op.Crashes s := by
  simp [Crashes, h]

theorem Crashes.eq {op : Op σ α} {s : σ} (h : op.Crashes s) :
    op s = (.error .crash, (op s).2) :=
  Prod.ext h rfl

theorem crashes_bind_of_ok {x : Op σ α} {f : α → Op σ β} {s t : σ} {a : α} (h : x s = (.ok a, t)) :
    (x >>= f).Crashes s ↔ (f a).Crashes t := by
  rw [Crashes, bind_of_ok h, Crashes]

theorem Crashes.bind {x : Op σ α} {s : σ} (h : x.Crashes s) (f : α → Op σ β) : (x >>= f).Crashes s := by
  rw [Crashes, bind_of_error h.eq]

theorem crashes_map {x : Op σ α} {f : α → β} {s : σ} :
    (x >>= fun a => pure (f a)).Crashes s ↔ x.Crashes s := by
  unfold Crashes
  rw [bind_run]
  cases x s with
  | mk result t =>
    cases result with
    | ok a => exact ⟨nofun, nofun⟩
    | error stop => simp

theorem bind_state {x : Op σ α} {f : α → Op σ β} {s : σ} (hf : ∀ a t, (f a t).2 = t) :
    ((x >>= f) s).2 = (x s).2 := by
  rw [bind_run]
  cases x s with
  | mk result t =>
    cases result with
    | ok a => exact hf a t
    | error stop => rfl

theorem map_state {x : Op σ α} {f : α → β} {s : σ} :
    ((x >>= fun a => pure (f a)) s).2 = (x s).2 :=
  bind_state fun _ _ => rfl

theorem mapFault_state {op : Op σ α} {f : Fault → Fault} {s : σ} :
    (mapFault f op s).2 = (op s).2 := by
  unfold mapFault
  rw [bind_state, attempt_state]
  intro result t
  cases result <;> rfl

theorem not_crashes_ask {question : σ → Except Stop α} {s : σ} (h : question s ≠ .error .crash) :
    ¬ (ask question).Crashes s := h

theorem not_crashes_answer (f : σ → α) (s : σ) : ¬ (ask fun s => .ok (f s)).Crashes s := nofun

theorem not_crashes_lift (check : Except Fault α) (s : σ) : ¬ (liftM check : Op σ α).Crashes s := by
  rw [Crashes, lift_run]
  cases check <;> exact nofun

theorem not_crashes_check {c : Prop} [Decidable c] {why : Fault} {f : PUnit → Op σ α} {x : Op σ α}
    {s : σ} (h : ¬ x.Crashes s) :
    ¬ (if c then (throw (.fault why) : Op σ PUnit) >>= f else x).Crashes s := by
  rw [Crashes, check_run]
  split
  · exact nofun
  · exact h

theorem not_crashes_bind {x : Op σ α} {f : α → Op σ β} {s : σ} (hx : ¬ x.Crashes s)
    (hf : ∀ a t, x s = (.ok a, t) → ¬ (f a).Crashes t) : ¬ (x >>= f).Crashes s := by
  cases h : x s with
  | mk result t =>
    cases result with
    | ok a =>
      rw [crashes_bind_of_ok h]
      exact hf a t h
    | error stop =>
      rw [Crashes, h] at hx
      rw [Crashes, bind_of_error h]
      exact fun hstop => hx (congrArg Except.error (Except.error.inj hstop))

theorem not_crashes_bind_of_fault {x : Op σ α} {f : α → Op σ β} {s t : σ} {why : Fault}
    (h : x s = (.error (.fault why), t)) : ¬ (x >>= f).Crashes s :=
  not_crashes_of_fault (bind_of_error h)

theorem crashes_attempt {op : Op σ α} {s : σ} : op.attempt.Crashes s ↔ op.Crashes s := by
  unfold Crashes attempt
  cases op s with
  | mk result t =>
    cases result with
    | ok a => simp
    | error stop => cases stop <;> simp

theorem crashes_mapFault {op : Op σ α} {f : Fault → Fault} {s : σ} :
    (mapFault f op).Crashes s ↔ op.Crashes s := by
  constructor
  · intro h
    cases hop : op s with
    | mk result t =>
      cases result with
      | ok a => exact absurd h (not_crashes_of_ok (mapFault_of_ok hop))
      | error stop =>
        cases stop with
        | fault why => exact absurd h (not_crashes_of_fault (mapFault_of_fault hop))
        | crash => exact congrArg Prod.fst hop
  · exact fun h => (crashes_attempt.mpr h).bind _

theorem crashes_orElseUndo {op : Op σ α} {undo : σ → σ} {s : σ} :
    (orElseUndo op undo).Crashes s ↔ op.Crashes s := by
  unfold Crashes orElseUndo
  cases op s with
  | mk result t => cases result <;> simp

theorem Crashes.closing {body : Op σ Unit} {s : σ} (h : body.Crashes s) (release : Op σ Unit) :
    (Op.closing body release).Crashes s :=
  (crashes_attempt.mpr h).bind _

theorem closing_state {body release : Op σ Unit} {s : σ} (h : ¬ body.Crashes s) :
    (Op.closing body release s).2 = (release (body s).2).2 := by
  unfold Op.closing
  obtain ⟨_, hb⟩ | ⟨why, hb⟩ := Stop.ok_or_fault h
  · rw [bind_of_ok (attempt_of_ok (Prod.ext hb rfl)), bind_state, attempt_state]
    intro released t
    cases released <;> rfl
  · rw [bind_of_ok (attempt_of_fault (Prod.ext hb rfl)), bind_state, attempt_state]
    intro released t
    cases released <;> rfl

/-- A loop gets past some elements and comes to one that stops it. -/
def RunsInto (passes stops : α → Prop) (as : List α) : Prop :=
  ∃ before a after, as = before ++ a :: after ∧ (∀ b ∈ before, passes b) ∧ stops a

theorem runsInto_cons {passes stops : α → Prop} {a : α} {as : List α} :
    RunsInto passes stops (a :: as) ↔ stops a ∨ (passes a ∧ RunsInto passes stops as) := by
  constructor
  · intro h
    obtain ⟨before, b, after, heq, hbefore, hb⟩ := h
    cases before with
    | nil =>
      cases heq
      exact .inl hb
    | cons c before =>
      cases heq
      exact .inr ⟨hbefore a List.mem_cons_self, before, b, after, rfl,
        fun d hd => hbefore d (List.mem_cons_of_mem a hd), hb⟩
  · rintro (ha | ⟨ha, before, b, after, rfl, hbefore, hb⟩)
    · exact ⟨[], a, as, rfl, nofun, ha⟩
    · exact ⟨a :: before, b, after, rfl, List.forall_mem_cons.mpr ⟨ha, hbefore⟩, hb⟩

theorem runsInto_and {passes stops : α → Prop} {asked : Prop} {as : List α} :
    RunsInto (fun a => asked ∧ passes a) (fun a => asked ∧ stops a) as ↔
      asked ∧ RunsInto passes stops as := by
  constructor
  · intro h
    obtain ⟨before, a, after, heq, hbefore, hc, ha⟩ := h
    exact ⟨hc, before, a, after, heq, fun b hb => (hbefore b hb).2, ha⟩
  · rintro ⟨hc, before, a, after, heq, hbefore, ha⟩
    exact ⟨before, a, after, heq, fun b hb => ⟨hc, hbefore b hb⟩, hc, ha⟩

theorem runsInto_of_not_forall {passes : α → Prop} {as : List α} (h : ¬ ∀ a ∈ as, passes a) :
    RunsInto passes (fun a => ¬ passes a) as := by
  induction as with
  | nil => exact absurd nofun h
  | cons a as ih =>
    rw [runsInto_cons]
    by_cases ha : passes a
    · exact .inr ⟨ha, ih fun hrest => h (List.forall_mem_cons.mpr ⟨ha, hrest⟩)⟩
    · exact .inl ha

/-- A loop ends at the first element that fails, in the state that it left. -/
theorem forM_append_of_error {f : α → Op σ PUnit} {before after : List α} {a : α} {s t u : σ} {stop : Stop}
    (hbefore : before.forM f s = (.ok ⟨⟩, t)) (ha : f a t = (.error stop, u)) :
    (before ++ a :: after).forM f s = (.error stop, u) := by
  induction before generalizing s with
  | nil =>
    cases hbefore
    exact bind_of_error ha
  | cons b before ih =>
    obtain ⟨_, v, hb, hrest⟩ := bind_eq_ok.mp hbefore
    exact (bind_of_ok hb).trans (ih hrest)

/-- How one round of a loop ends. A round that does not crash leaves a state of the loop. -/
inductive Round (f : α → Op σ PUnit) (I : σ → Prop) (passes stops : α → Prop) (a : α) (s : σ) : Prop where
  | fails {why : Fault} {t : σ} (hpasses : ¬ passes a) (hstops : ¬ stops a)
      (h : f a s = (.error (.fault why), t)) (ht : I t)
  | passes {t : σ} (hpasses : passes a) (hstops : ¬ stops a) (h : f a s = (.ok ⟨⟩, t)) (ht : I t)
  | stops (hstops : stops a) (h : (f a).Crashes s)

section

variable {f : α → Op σ PUnit} {I : σ → Prop} {passes stops : α → Prop} {a : α} {s : σ}

theorem Round.crashes_iff (hr : Round f I passes stops a s) : (f a).Crashes s ↔ stops a := by
  cases hr with
  | fails hp hst h ht => simp only [not_crashes_of_fault h, hst]
  | passes hp hst h ht => simp only [not_crashes_of_ok h, hst]
  | stops hst h => simp only [h, hst]

theorem Round.keeps (hr : Round f I passes stops a s) (hc : ¬ (f a).Crashes s) : I (f a s).2 := by
  cases hr with
  | fails hp hst h ht => exact h ▸ ht
  | passes hp hst h ht => exact h ▸ ht
  | stops hst h => exact absurd h hc

end

theorem forM_crashes {f : α → Op σ PUnit} {I : σ → Prop} {passes stops : α → Prop} (as : List α)
    (hround : ∀ a ∈ as, ∀ s, I s → Round f I passes stops a s) {s : σ} (hs : I s) :
    (as.forM f).Crashes s ↔ RunsInto passes stops as := by
  induction as generalizing s with
  | nil =>
    constructor
    · intro h
      cases h
    · intro h
      obtain ⟨before, a, after, heq, -⟩ := h
      simp at heq
  | cons a as ih =>
    have hrest : ∀ b ∈ as, ∀ s, I s → Round f I passes stops b s :=
      fun b hb => hround b (List.mem_cons_of_mem a hb)
    rw [runsInto_cons]
    change (f a >>= fun _ => as.forM f).Crashes s ↔ _
    cases hround a List.mem_cons_self s hs with
    | fails hp hst h ht =>
      have hn : ¬ (f a >>= fun _ => as.forM f).Crashes s := not_crashes_bind_of_fault h
      simp only [hn, hp, hst, false_and, or_self]
    | passes hp hst h ht =>
      rw [crashes_bind_of_ok h, ih hrest ht]
      simp only [hp, hst, true_and, false_or]
    | stops hst h =>
      have hcrash := h.bind fun _ => as.forM f
      simp only [hcrash, hst, true_or]

theorem forM_invariant {f : α → Op σ PUnit} {I : σ → Prop} (as : List α)
    (hf : ∀ a ∈ as, ∀ s, I s → ¬ (f a).Crashes s → I (f a s).2) {s : σ} (hs : I s)
    (hc : ¬ (as.forM f).Crashes s) : I (as.forM f s).2 := by
  induction as generalizing s with
  | nil => exact hs
  | cons a as ih =>
    have hrest : ∀ b ∈ as, ∀ s, I s → ¬ (f b).Crashes s → I (f b s).2 :=
      fun b hb => hf b (List.mem_cons_of_mem a hb)
    change ¬ (f a >>= fun _ => as.forM f).Crashes s at hc
    change I ((f a >>= fun _ => as.forM f) s).2
    have hfirst := hf a List.mem_cons_self s hs fun hcrash => hc (hcrash.bind _)
    cases h : f a s with
    | mk result t =>
      rw [h] at hfirst
      cases result with
      | ok _ =>
        rw [crashes_bind_of_ok h] at hc
        rw [bind_of_ok h]
        exact ih hrest hfirst hc
      | error stop =>
        rw [bind_of_error h]
        exact hfirst

theorem forM_keeps {f : α → Op σ PUnit} {I : σ → Prop} {passes stops : α → Prop} (as : List α)
    (hround : ∀ a ∈ as, ∀ s, I s → Round f I passes stops a s) {s : σ} (hs : I s)
    (hc : ¬ (as.forM f).Crashes s) : I (as.forM f s).2 :=
  forM_invariant as (fun a ha s hs hc => (hround a ha s hs).keeps hc) hs hc

theorem forM_passes {f : α → Op σ PUnit} {I : σ → Prop} {passes stops : α → Prop} (as : List α)
    (hround : ∀ a ∈ as, ∀ s, I s → Round f I passes stops a s) {s t : σ} (hs : I s)
    (h : as.forM f s = (.ok ⟨⟩, t)) : ∀ a ∈ as, passes a := by
  induction as generalizing s with
  | nil => exact nofun
  | cons a as ih =>
    have hrest : ∀ b ∈ as, ∀ s, I s → Round f I passes stops b s :=
      fun b hb => hround b (List.mem_cons_of_mem a hb)
    obtain ⟨_, u, hfirst, hlast⟩ := bind_eq_ok.mp h
    cases hround a List.mem_cons_self s hs with
    | fails hp hst hrun ht => cases hrun.symm.trans hfirst
    | passes hp hst hrun ht =>
      cases hrun.symm.trans hfirst
      exact List.forall_mem_cons.mpr ⟨hp, ih hrest ht hlast⟩
    | stops hst hrun => exact absurd hrun (not_crashes_of_ok hfirst)

inductive Turn (f : β → α → Op σ β) (I : List α → β → σ → Prop) (J : σ → Prop) (passes stops : α → Prop)
    (a : α) (as : List α) (b : β) (s : σ) : Prop where
  | fails {why : Fault} {t : σ} (hpasses : ¬ passes a) (hstops : ¬ stops a)
      (h : f b a s = (.error (.fault why), t)) (ht : J t)
  | passes {c : β} {t : σ} (hpasses : passes a) (hstops : ¬ stops a) (h : f b a s = (.ok c, t))
      (ht : I as c t)
  | stops (hstops : stops a) (h : (f b a).Crashes s)

section

variable {f : β → α → Op σ β} {I : List α → β → σ → Prop} {J : σ → Prop} {passes stops : α → Prop}

theorem foldlM_crashes (hturn : ∀ a as b s, I (a :: as) b s → Turn f I J passes stops a as b s)
    (as : List α) {b : β} {s : σ} (hs : I as b s) :
    (as.foldlM f b).Crashes s ↔ RunsInto passes stops as := by
  induction as generalizing b s with
  | nil =>
    constructor
    · intro h
      cases h
    · intro h
      obtain ⟨before, a, after, heq, -⟩ := h
      simp at heq
  | cons a as ih =>
    rw [List.foldlM_cons, runsInto_cons]
    cases hturn a as b s hs with
    | fails hp hst h ht => simp only [not_crashes_bind_of_fault h, hp, hst, false_and, or_self]
    | passes hp hst h ht =>
      rw [crashes_bind_of_ok h, ih ht]
      simp only [hp, hst, true_and, false_or]
    | stops hst h =>
      have hcrash := h.bind fun c => as.foldlM f c
      simp only [hcrash, hst, true_or]

theorem foldlM_keeps (hturn : ∀ a as b s, I (a :: as) b s → Turn f I J passes stops a as b s)
    (hdone : ∀ b s, I [] b s → J s) (as : List α) {b : β} {s : σ} (hs : I as b s)
    (hc : ¬ (as.foldlM f b).Crashes s) : J (as.foldlM f b s).2 := by
  induction as generalizing b s with
  | nil => exact hdone b s hs
  | cons a as ih =>
    rw [List.foldlM_cons] at hc ⊢
    cases hturn a as b s hs with
    | fails hp hst h ht =>
      rw [bind_of_error h]
      exact ht
    | passes hp hst h ht =>
      rw [crashes_bind_of_ok h] at hc
      rw [bind_of_ok h]
      exact ih ht hc
    | stops hst h => exact absurd (h.bind _) hc

end

end Op

end Planar
