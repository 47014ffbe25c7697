import DialogueTree.Error
import DialogueTree.Event

/-!
# Traced results

The result of something that tells events on its way and may fail. Events told
before a failure are kept.
-/

namespace DialogueTree

/-- A result or an error, and the events on the way to it. -/
structure Traced (α : Type) where
  events : List Event
  result : Except Error α

namespace Traced

variable {α β : Type}

/-- A result without events. -/
def ok (a : α) : Traced α := ⟨[], .ok a⟩

/-- An error without events. -/
def fail (e : Error) : Traced α := ⟨[], .error e⟩

/-- Tells an event first. -/
def tell (e : Event) (x : Traced α) : Traced α := ⟨e :: x.events, x.result⟩

/-- Goes on with a result. -/
def bind (x : Traced α) (f : α → Traced β) : Traced β :=
  match x.result with
  | .ok a => ⟨x.events ++ (f a).events, (f a).result⟩
  | .error e => ⟨x.events, .error e⟩

/-- Changes a result. -/
def map (f : α → β) (x : Traced α) : Traced β := ⟨x.events, x.result.map f⟩

/-- Does one thing after the other, each with the result of the one before. -/
def fold (f : β → α → Traced β) : β → List α → Traced β
  | b, [] => ok b
  | b, a :: rest => (f b a).bind fun b' => fold f b' rest

@[simp] theorem bind_ok (a : α) (f : α → Traced β) : (ok a).bind f = f a := by
  simp [ok, bind]

@[simp] theorem bind_fail (e : Error) (f : α → Traced β) : (fail e).bind f = fail e := rfl

@[simp] theorem bind_tell (e : Event) (x : Traced α) (f : α → Traced β) :
    (tell e x).bind f = tell e (x.bind f) := by
  obtain ⟨events, result⟩ := x
  cases result <;> rfl

theorem bind_assoc {γ : Type} (x : Traced α) (f : α → Traced β) (g : β → Traced γ) :
    (x.bind f).bind g = x.bind fun a => (f a).bind g := by
  obtain ⟨events, result⟩ := x
  cases result with
  | error e => rfl
  | ok a =>
    simp only [bind]
    cases (f a).result <;> simp

theorem bind_map {γ : Type} (x : Traced α) (g : α → β) (f : β → Traced γ) :
    (x.map g).bind f = x.bind fun a => f (g a) := by
  obtain ⟨events, result⟩ := x
  cases result <;> rfl

theorem map_bind {γ : Type} (x : Traced α) (f : α → Traced β) (g : β → γ) :
    (x.bind f).map g = x.bind fun a => (f a).map g := by
  obtain ⟨events, result⟩ := x
  cases result <;> rfl

theorem map_map {γ : Type} (x : Traced α) (f : α → β) (g : β → γ) :
    (x.map f).map g = x.map fun a => g (f a) := by
  obtain ⟨events, result⟩ := x
  cases result <;> rfl

theorem fold_append (f : β → α → Traced β) (b : β) (as bs : List α) :
    fold f b (as ++ bs) = (fold f b as).bind fun b' => fold f b' bs := by
  induction as generalizing b with
  | nil => rw [List.nil_append, fold, bind_ok]
  | cons a as ih =>
    rw [List.cons_append, fold, fold, bind_assoc]
    simp only [ih]

theorem fold_map {γ : Type} (f : β → α → Traced β) (g : γ → α) (b : β) (cs : List γ) :
    fold f b (cs.map g) = fold (fun b c => f b (g c)) b cs := by
  induction cs generalizing b with
  | nil => rfl
  | cons c cs ih =>
    rw [List.map_cons, fold, fold]
    simp only [ih]

theorem fold_flatMap {γ : Type} (f : β → α → Traced β) (g : γ → List α) (b : β) (cs : List γ) :
    fold f b (cs.flatMap g) = fold (fun b c => fold f b (g c)) b cs := by
  induction cs generalizing b with
  | nil => rfl
  | cons c cs ih =>
    rw [List.flatMap_cons, fold_append, fold]
    simp only [ih]

/-- What every part leaves alone may as well be done at the end. -/
theorem fold_comm {f : β → α → Traced β} {g : β → β} (h : ∀ b a, f (g b) a = (f b a).map g)
    (b : β) (as : List α) : fold f (g b) as = (fold f b as).map g := by
  induction as generalizing b with
  | nil => rfl
  | cons a as ih =>
    rw [fold, fold, h, bind_map, map_bind]
    simp only [ih]

/-! ## Results -/

@[simp] theorem result_fail (e : Error) : (fail e : Traced α).result = .error e := rfl

@[simp] theorem result_tell (e : Event) (x : Traced α) : (tell e x).result = x.result := rfl

@[simp] theorem result_map (f : α → β) (x : Traced α) :
    (x.map f).result = x.result.map f := rfl

theorem result_map_eq_ok_iff {f : α → β} {x : Traced α} {b : β} :
    (x.map f).result = .ok b ↔ ∃ a, x.result = .ok a ∧ b = f a := by
  obtain ⟨events, result⟩ := x
  cases result <;> simp [Except.map, eq_comm]

theorem result_map_eq_error_iff {f : α → β} {x : Traced α} {e : Error} :
    (x.map f).result = .error e ↔ x.result = .error e := by
  obtain ⟨events, result⟩ := x
  cases result <;> simp [Except.map]

@[simp] theorem fold_nil (f : β → α → Traced β) (b : β) : fold f b [] = ok b := rfl

theorem fold_cons (f : β → α → Traced β) (b : β) (a : α) (rest : List α) :
    fold f b (a :: rest) = (f b a).bind fun b' => fold f b' rest := rfl

theorem result_bind_eq_ok_iff {x : Traced α} {f : α → Traced β} {b : β} :
    (x.bind f).result = .ok b ↔ ∃ a, x.result = .ok a ∧ (f a).result = .ok b := by
  obtain ⟨events, result⟩ := x
  cases result <;> simp [bind]

theorem result_bind (x : Traced α) (f : α → Traced β) :
    (x.bind f).result = x.result.bind fun a => (f a).result := by
  obtain ⟨events, result⟩ := x
  cases result <;> rfl

theorem events_bind_of_ok {x : Traced α} {f : α → Traced β} {a : α} (h : x.result = .ok a) :
    (x.bind f).events = x.events ++ (f a).events := by
  rw [bind, h]

/-- All parts of something that succeeds succeed. -/
theorem exists_ok_of_fold {f : β → α → Traced β} {b c : β} {as : List α}
    (h : (fold f b as).result = .ok c) :
    ∀ a ∈ as, ∃ b' c', (f b' a).result = .ok c' := by
  induction as generalizing b with
  | nil => intro a ha; cases ha
  | cons a as ih =>
    rw [fold_cons, result_bind_eq_ok_iff] at h
    obtain ⟨b', hb', hrest⟩ := h
    intro x hx
    rcases List.mem_cons.mp hx with rfl | hx
    · exact ⟨b, b', hb'⟩
    · exact ih hrest x hx

/-- What has only parts that succeed, wherever they begin, succeeds. -/
theorem exists_ok_fold {f : β → α → Traced β} {as : List α}
    (h : ∀ a ∈ as, ∀ b, ∃ c, (f b a).result = .ok c) (b : β) :
    ∃ c, (fold f b as).result = .ok c := by
  induction as generalizing b with
  | nil => exact ⟨b, rfl⟩
  | cons a as ih =>
    obtain ⟨next, hnext⟩ := h a List.mem_cons_self b
    obtain ⟨c, hc⟩ := ih (fun x hx => h x (List.mem_cons_of_mem _ hx)) next
    exact ⟨c, result_bind_eq_ok_iff.mpr ⟨next, hnext, hc⟩⟩

/-- Two things that are done part by part have the same result if each two parts have, unless
two of them break apart; what has broken apart has to stay so. -/
theorem result_fold_eq_or {apart : Except Error β → Except Error β → Prop}
    (hlasts : ∀ {x y} (k l : β → Except Error β), apart x y → apart (x.bind k) (y.bind l))
    {f g : β → α → Traced β}
    (h : ∀ b a, (f b a).result = (g b a).result ∨ apart (f b a).result (g b a).result)
    (b : β) (as : List α) :
    (fold f b as).result = (fold g b as).result
      ∨ apart (fold f b as).result (fold g b as).result := by
  induction as generalizing b with
  | nil => exact .inl rfl
  | cons a as ih =>
    rw [fold_cons, fold_cons, result_bind, result_bind]
    rcases h b a with hsame | hapart
    · rw [hsame]
      cases (g b a).result with
      | error e => exact .inl rfl
      | ok b' => exact ih b'
    · exact .inr (hlasts _ _ hapart)

/-! ## Events -/

/-- What is told by something that is done part by part is told by one of the parts. -/
theorem mem_events_fold {f : β → α → Traced β} {b : β} {as : List α} {event : Event}
    (h : event ∈ (fold f b as).events) : ∃ a ∈ as, ∃ b', event ∈ (f b' a).events := by
  induction as generalizing b with
  | nil => cases h
  | cons a as ih =>
    rw [fold_cons] at h
    cases hfirst : (f b a).result with
    | error e =>
      rw [bind, hfirst] at h
      exact ⟨a, List.mem_cons_self, b, h⟩
    | ok next =>
      rw [events_bind_of_ok hfirst] at h
      rcases List.mem_append.mp h with hhere | hrest
      · exact ⟨a, List.mem_cons_self, b, hhere⟩
      · obtain ⟨a', ha', b', hevent⟩ := ih hrest
        exact ⟨a', List.mem_cons_of_mem _ ha', b', hevent⟩

/-- Two things that are done part by part are the same if each two parts are. Of the events of a
part it may be assumed what is known of those of the whole. -/
theorem fold_congr_of_events {f g : β → α → Traced β} {P : Event → Prop} {as : List α}
    (h : ∀ a ∈ as, ∀ b, (∀ event ∈ (f b a).events, P event) → f b a = g b a) {b : β}
    (hb : ∀ event ∈ (fold f b as).events, P event) : fold f b as = fold g b as := by
  induction as generalizing b with
  | nil => rfl
  | cons a as ih =>
    rw [List.forall_mem_cons] at h
    rw [fold_cons] at hb ⊢
    rw [fold_cons]
    cases hfirst : (f b a).result with
    | error e =>
      have hhere : f b a = g b a := h.1 b fun event hevent => hb event (by rwa [bind, hfirst])
      rw [← hhere, bind, bind, hfirst]
    | ok next =>
      rw [events_bind_of_ok hfirst, List.forall_mem_append] at hb
      have hhere : f b a = g b a := h.1 b hb.1
      have hrest : fold f next as = fold g next as := ih h.2 hb.2
      rw [← hhere, bind, bind, hfirst]
      dsimp only
      rw [hrest]

end Traced

end DialogueTree
