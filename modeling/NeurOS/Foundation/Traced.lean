import NeurOS.Foundation.Outcome

/-!
# Computations that emit outputs

A computation emits outputs one after the other and may panic on the way.  What
it emitted before a panic stays.
-/

namespace Foundation

structure Traced (ω : Type u) (α : Type v) where
  emitted : List ω
  result : Outcome α

namespace Traced

variable {ω : Type u} {α β γ : Type v}

def emits (outputs : List ω) (a : α) : Traced ω α where
  emitted := outputs
  result := .ok a

def emit (output : ω) : Traced ω Unit :=
  emits [output] ()

def lift (outcome : Outcome α) : Traced ω α where
  emitted := []
  result := outcome

def after (outputs : List ω) (t : Traced ω α) : Traced ω α where
  emitted := outputs ++ t.emitted
  result := t.result

def bind (t : Traced ω α) (f : α -> Traced ω β) : Traced ω β :=
  match t.result with
  | .ok a => after t.emitted (f a)
  | .error e => { emitted := t.emitted, result := .error e }

def returned (t : Traced ω α) : Outcome (α × List ω) :=
  match t.result with
  | .ok a => .ok (a, t.emitted)
  | .error e => .error e

instance : Monad (Traced ω) where
  pure a := emits [] a
  bind := bind

instance : MonadLift Outcome (Traced ω) where
  monadLift := lift

@[simp] theorem after_nil (t : Traced ω α) : after [] t = t := rfl

theorem after_after (first second : List ω) (t : Traced ω α) :
    after first (after second t) = after (first ++ second) t := by
  simp [after]

@[simp] theorem after_emits (first second : List ω) (a : α) :
    after first (emits second a) = emits (first ++ second) a := rfl

@[simp] theorem emits_bind (outputs : List ω) (a : α) (f : α -> Traced ω β) :
    (emits outputs a >>= f) = after outputs (f a) := rfl

@[simp] theorem pure_bind (a : α) (f : α -> Traced ω β) :
    ((pure a : Traced ω α) >>= f) = f a := rfl

@[simp] theorem lift_ok_bind (a : α) (f : α -> Traced ω β) :
    ((lift (.ok a) : Traced ω α) >>= f) = f a := rfl

@[simp] theorem lift_error_bind (e : Panic) (f : α -> Traced ω β) :
    ((lift (.error e) : Traced ω α) >>= f) = lift (.error e) := rfl

theorem after_bind (outputs : List ω) (t : Traced ω α) (f : α -> Traced ω β) :
    (after outputs t >>= f) = after outputs (t >>= f) := by
  cases t with
  | mk emitted result =>
      cases result with
      | error e => rfl
      | ok a => exact (after_after outputs emitted (f a)).symm

theorem bind_assoc (t : Traced ω α) (f : α -> Traced ω β) (g : β -> Traced ω γ) :
    (t >>= f >>= g) = (t >>= fun a => f a >>= g) := by
  cases t with
  | mk emitted result =>
      cases result with
      | error e => rfl
      | ok a => exact after_bind emitted (f a) g

theorem bind_result (t : Traced ω α) (f : α -> Traced ω β) :
    (t >>= f).result = t.result >>= fun a => (f a).result := by
  change (t.bind f).result = _
  unfold bind
  cases t.result with
  | ok a => rfl
  | error e => rfl

theorem bind_ok {t : Traced ω α} {a : α} (h : t.result = .ok a) (f : α -> Traced ω β) :
    (t >>= f) = after t.emitted (f a) := by
  show bind t f = _
  unfold bind
  rw [h]

theorem bind_error {t : Traced ω α} {e : Panic} (h : t.result = .error e)
    (f : α -> Traced ω β) :
    (t >>= f) = { emitted := t.emitted, result := .error e } := by
  show bind t f = _
  unfold bind
  rw [h]

theorem bind_result_eq_ok_iff {t : Traced ω α} {f : α -> Traced ω β} {b : β} :
    (t >>= f).result = .ok b <-> exists a, t.result = .ok a ∧ (f a).result = .ok b := by
  cases h : t.result with
  | error e =>
      rw [bind_error h]
      simp
  | ok a =>
      rw [bind_ok h]
      simp [after]

theorem bind_pure_emitted (t : Traced ω α) (f : α -> β) :
    (t >>= fun a => pure (f a)).emitted = t.emitted := by
  cases t with
  | mk emitted result =>
      cases result with
      | error e => rfl
      | ok a => exact List.append_nil emitted

theorem forM_emits {items : List α} {f : α -> Traced ω PUnit} {g : α -> List ω}
    (h : forall a, a ∈ items -> f a = emits (g a) ⟨⟩) :
    items.forM f = emits (items.flatMap g) ⟨⟩ := by
  induction items with
  | nil => rfl
  | cons item rest ih =>
      change (f item >>= fun _ => rest.forM f) = _
      rw [h item List.mem_cons_self, emits_bind,
        ih (fun a ha => h a (List.mem_cons_of_mem item ha)), after_emits, List.flatMap_cons]

theorem after_inj {first second : List ω} (h : first.length = second.length)
    {t t' : Traced ω α} :
    after first t = after second t' <-> first = second ∧ t = t' := by
  cases t with
  | mk emitted result =>
      cases t' with
      | mk emitted' result' =>
          unfold after
          rw [mk.injEq, mk.injEq]
          constructor
          · intro hequal
            rcases List.append_inj hequal.1 h with ⟨hfirst, hemitted⟩
            exact ⟨hfirst, hemitted, hequal.2⟩
          · rintro ⟨hfirst, hemitted, hresult⟩
            exact ⟨by rw [hfirst, hemitted], hresult⟩

theorem after_right_inj {outputs : List ω} {t t' : Traced ω α} :
    after outputs t = after outputs t' <-> t = t' := by
  rw [after_inj rfl]
  exact and_iff_right rfl

theorem mem_bind_emitted_iff {t : Traced ω α} {f : α -> Traced ω β} {output : ω} :
    output ∈ (t >>= f).emitted <->
      output ∈ t.emitted ∨ exists a, t.result = .ok a ∧ output ∈ (f a).emitted := by
  cases h : t.result with
  | error e =>
      rw [bind_error h]
      simp
  | ok a =>
      rw [bind_ok h]
      simp [after]

def Within (P : ω -> Prop) (t : Traced ω α) : Prop :=
  forall output, output ∈ t.emitted -> P output

theorem within_bind {P : ω -> Prop} {t : Traced ω α} {f : α -> Traced ω β}
    (ht : Within P t) (hf : forall a, t.result = .ok a -> Within P (f a)) :
    Within P (t >>= f) := by
  intro output houtput
  rcases mem_bind_emitted_iff.mp houtput with hfirst | ⟨a, ha, hrest⟩
  · exact ht output hfirst
  · exact hf a ha output hrest

/-!
# Computations that return
-/

def Completes (P : ω -> Prop) (t : Traced ω α) : Prop :=
  (exists a, t.result = .ok a) ∧ forall output, output ∈ t.emitted -> P output

theorem completes_emits_iff {P : ω -> Prop} {outputs : List ω} {a : α} :
    Completes P (emits outputs a) <-> forall output, output ∈ outputs -> P output :=
  and_iff_right ⟨a, rfl⟩

theorem completes_bind_iff {P : ω -> Prop} {t : Traced ω α} {f : α -> Traced ω β} :
    Completes P (t >>= f) <->
      Completes P t ∧ forall a, t.result = .ok a -> Completes P (f a) := by
  unfold Completes
  cases h : t.result with
  | error e =>
      rw [bind_error h]
      simp
  | ok a =>
      rw [bind_ok h]
      simp only [after, List.forall_mem_append, Except.ok.injEq, forall_eq', exists_eq', true_and]
      constructor
      · rintro ⟨hresult, hfirst, hsecond⟩
        exact ⟨hfirst, hresult, hsecond⟩
      · rintro ⟨hfirst, hresult, hsecond⟩
        exact ⟨hresult, hfirst, hsecond⟩

theorem completes_then_iff {P : ω -> Prop} {t : Traced ω PUnit} {u : Traced ω α} :
    Completes P (t >>= fun _ => u) <-> Completes P t ∧ Completes P u := by
  rw [completes_bind_iff]
  constructor
  · rintro ⟨ht, hu⟩
    rcases ht.1 with ⟨a, ha⟩
    exact ⟨ht, hu a ha⟩
  · rintro ⟨ht, hu⟩
    exact ⟨ht, fun _ _ => hu⟩

theorem completes_lift_bind_iff {P : ω -> Prop} {outcome : Outcome α} {f : α -> Traced ω β} :
    Completes P (lift outcome >>= f) <-> exists a, outcome = .ok a ∧ Completes P (f a) := by
  cases outcome with
  | error e =>
      rw [lift_error_bind]
      simp [Completes, lift]
  | ok a => simp

/-!
# Outputs made of finer ones
-/

variable {ω' : Type w}

/-- Replace each output by the finer outputs that it stands for. -/
def expand (f : ω -> List ω') (t : Traced ω α) : Traced ω' α where
  emitted := t.emitted.flatMap f
  result := t.result

@[simp] theorem expand_emits (f : ω -> List ω') (outputs : List ω) (a : α) :
    expand f (emits outputs a) = emits (outputs.flatMap f) a := rfl

@[simp] theorem expand_pure (f : ω -> List ω') (a : α) :
    expand f (pure a : Traced ω α) = pure a := rfl

@[simp] theorem expand_lift (f : ω -> List ω') (outcome : Outcome α) :
    expand f (lift outcome) = lift outcome := rfl

theorem expand_after (f : ω -> List ω') (outputs : List ω) (t : Traced ω α) :
    expand f (after outputs t) = after (outputs.flatMap f) (expand f t) := by
  simp [expand, after, List.flatMap_append]

theorem expand_bind (f : ω -> List ω') (t : Traced ω α) (g : α -> Traced ω β) :
    expand f (t >>= g) = (expand f t >>= fun a => expand f (g a)) := by
  cases t with
  | mk emitted result =>
      cases result with
      | error e => rfl
      | ok a => exact expand_after f emitted (g a)

end Traced

end Foundation
