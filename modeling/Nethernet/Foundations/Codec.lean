import Mathlib.Data.List.Basic

/-!
# Readers and writers

A reader takes what it needs from the front of its input, a writer appends to its output and keeps
what it wrote when it fails. `Writes w xs` and `Reads r xs a` say that `w` writes exactly `xs`, and
that `r` takes exactly `xs` off any input that starts with it and returns `a`; both compose along
`>>=`, so a round trip is proved piece by piece. `Accepts r G` says what `r` takes off every input:
exactly the words of the grammar `G`, each with its value.
-/

namespace Foundations

variable {τ ε α β : Type}

/-- A reader of a list of `τ`, with errors `ε`. -/
abbrev Reader (τ ε α : Type) := StateT (List τ) (Except ε) α

/-- A writer of a list of `τ`, with errors `ε`. -/
abbrev Writer (τ ε α : Type) := ExceptT ε (StateM (List τ)) α

namespace Reader

/-- Take `n` elements; `e` is the error when there are not that many. -/
def exact (e : ε) (n : ℕ) : Reader τ ε (List τ) := fun xs =>
  if n ≤ xs.length then .ok (xs.take n, xs.drop n) else .error e

/-- A result that takes nothing from the input. -/
def lift (x : Except ε α) : Reader τ ε α := fun xs => x.map fun a => (a, xs)

/-- The reader takes exactly `xs` and returns `a`, whatever follows. -/
def Reads (r : Reader τ ε α) (xs : List τ) (a : α) : Prop :=
  ∀ rest, r (xs ++ rest) = .ok (a, rest)

theorem reads_exact (e : ε) {n : ℕ} {xs : List τ} (h : xs.length = n) :
    Reads (exact e n) xs xs := fun rest => by
  rw [exact, if_pos (by rw [List.length_append]; omega), List.take_left' h, List.drop_left' h]

theorem reads_pure (a : α) : Reads (pure a : Reader τ ε α) [] a := fun _ => rfl

/-- What follows a reader goes on with the rest of its input. -/
theorem Reads.bind_apply {r : Reader τ ε α} {xs : List τ} {a : α} (h : Reads r xs a)
    (f : α → Reader τ ε β) (rest : List τ) : (r >>= f) (xs ++ rest) = f a rest := by
  change (r (xs ++ rest)) >>= (fun p => f p.1 p.2) = _
  rw [h rest]
  rfl

theorem Reads.bind {r : Reader τ ε α} {f : α → Reader τ ε β} {xs ys : List τ} {a : α} {b : β}
    (h : Reads r xs a) (h' : Reads (f a) ys b) : Reads (r >>= f) (xs ++ ys) b := fun rest => by
  rw [List.append_assoc, h.bind_apply, h' rest]

theorem Reads.map {r : Reader τ ε α} {xs : List τ} {a : α} (h : Reads r xs a) (f : α → β) :
    Reads (f <$> r) xs (f a) := fun rest => by
  have hr := h rest
  calc (f <$> r) (xs ++ rest) = (r (xs ++ rest)) >>= fun p => .ok (f p.1, p.2) := rfl
    _ = .ok (f a, rest) := by rw [hr]; rfl

theorem exact_of_lt (e : ε) {n : ℕ} {xs : List τ} (h : xs.length < n) : exact e n xs = .error e :=
  if_neg (Nat.not_le.2 h)

/-- A reader that fails ends the reading. -/
theorem bind_of_error {r : Reader τ ε α} {xs : List τ} {e : ε} (h : r xs = .error e)
    (f : α → Reader τ ε β) : (r >>= f) xs = .error e := by
  change (r xs) >>= (fun p => f p.1 p.2) = _
  rw [h]
  rfl

/-- A reading with two readers, one after the other. -/
theorem bind_eq_ok {r : Reader τ ε α} {f : α → Reader τ ε β} {xs rest : List τ} {b : β} :
    (r >>= f) xs = .ok (b, rest) ↔
      ∃ a rest', r xs = .ok (a, rest') ∧ f a rest' = .ok (b, rest) := by
  change (r xs) >>= (fun p => f p.1 p.2) = _ ↔ _
  rcases r xs with e | ⟨a, rest'⟩
  · exact ⟨fun h => (by cases h), fun ⟨_, _, h, _⟩ => (by cases h)⟩
  · refine ⟨fun h => ⟨a, rest', rfl, h⟩, fun ⟨a', rest'', ha, h⟩ => ?_⟩
    obtain ⟨rfl, rfl⟩ := Prod.mk.inj (Except.ok.inj ha)
    exact h

theorem map_of_error {r : Reader τ ε α} {xs : List τ} {e : ε} (h : r xs = .error e) (f : α → β) :
    (f <$> r) xs = .error e := by
  change (r xs) >>= (fun p => .ok (f p.1, p.2)) = _
  rw [h]
  rfl

/-- The reader takes exactly the words of `G` off its input, and returns their values. -/
def Accepts (r : Reader τ ε α) (G : List τ → α → Prop) : Prop :=
  ∀ xs a rest, r xs = .ok (a, rest) ↔ ∃ word, G word a ∧ xs = word ++ rest

theorem Accepts.congr {r : Reader τ ε α} {G G' : List τ → α → Prop} (h : Accepts r G)
    (hG : ∀ word a, G word a ↔ G' word a) : Accepts r G' := fun xs a rest => by
  rw [h]
  simp only [hG]

theorem accepts_pure (a : α) : Accepts (pure a : Reader τ ε α) fun word b => word = [] ∧ a = b :=
  fun xs b rest => by
    change Except.ok (a, xs) = .ok (b, rest) ↔ _
    simp

theorem accepts_throw (e : ε) : Accepts (throw e : Reader τ ε α) fun _ _ => False :=
  fun _ _ _ => iff_of_false nofun fun ⟨_, h, _⟩ => h

theorem accepts_lift (x : Except ε α) : Accepts (lift x : Reader τ ε α)
    fun word a => word = [] ∧ x = .ok a := fun xs a rest => by
  cases x with
  | error e => simp [lift, Except.map]
  | ok b => simp [lift, Except.map]

theorem accepts_lift_mapError {ε' : Type} (x : Except ε' α) (f : ε' → ε) :
    Accepts (lift (x.mapError f) : Reader τ ε α) fun word a => word = [] ∧ x = .ok a :=
  (accepts_lift _).congr fun word a => by
    cases x with
    | error e => simp [Except.mapError]
    | ok b => simp [Except.mapError]

theorem accepts_exact (e : ε) (n : ℕ) :
    Accepts (exact e n : Reader τ ε (List τ)) fun word ys => word.length = n ∧ word = ys := by
  intro xs ys rest
  constructor
  · intro h
    rw [exact] at h
    split at h
    · rename_i hn
      obtain ⟨rfl, rfl⟩ := Prod.mk.inj (Except.ok.inj h)
      exact ⟨xs.take n, ⟨List.length_take_of_le hn, rfl⟩, (List.take_append_drop n xs).symm⟩
    · cases h
  · rintro ⟨word, ⟨hn, rfl⟩, rfl⟩
    exact reads_exact e hn rest

/-- A word of two readers one after the other is a word of the first, then one of the second. -/
theorem Accepts.bind {r : Reader τ ε α} {f : α → Reader τ ε β} {G : List τ → α → Prop}
    {G' : α → List τ → β → Prop} (h : Accepts r G) (h' : ∀ a, Accepts (f a) (G' a)) :
    Accepts (r >>= f) fun word b => ∃ first a second, G first a ∧ G' a second b ∧
      word = first ++ second := by
  intro xs b rest
  rw [bind_eq_ok]
  constructor
  · rintro ⟨a, rest', hr, hb⟩
    obtain ⟨first, hfirst, rfl⟩ := (h xs a rest').1 hr
    obtain ⟨second, hsecond, rfl⟩ := (h' a rest' b rest).1 hb
    exact ⟨first ++ second, ⟨first, a, second, hfirst, hsecond, rfl⟩,
      (List.append_assoc _ _ _).symm⟩
  · rintro ⟨_, ⟨first, a, second, hfirst, hsecond, rfl⟩, rfl⟩
    exact ⟨a, second ++ rest, (h _ a _).2 ⟨first, hfirst, List.append_assoc _ _ _⟩,
      (h' a _ b rest).2 ⟨second, hsecond, rfl⟩⟩

/-- A reader whose result is changed. -/
theorem Accepts.bind_pure {r : Reader τ ε α} {G : List τ → α → Prop} (h : Accepts r G)
    (f : α → β) : Accepts (r >>= fun a => pure (f a)) fun word b => ∃ a, G word a ∧ f a = b := by
  refine (h.bind fun a => accepts_pure (f a)).congr fun word b => ?_
  constructor
  · rintro ⟨first, a, _, hfirst, ⟨rfl, hb⟩, rfl⟩
    exact ⟨a, by rwa [List.append_nil], hb⟩
  · rintro ⟨a, hword, hb⟩
    exact ⟨word, a, [], hword, ⟨rfl, hb⟩, (List.append_nil word).symm⟩

theorem Accepts.map {r : Reader τ ε α} {G : List τ → α → Prop} (h : Accepts r G) (f : α → β) :
    Accepts (f <$> r) fun word b => ∃ a, G word a ∧ f a = b := by
  rw [← bind_pure_comp]
  exact h.bind_pure f

end Reader

namespace Writer

/-- Append `xs`. -/
def all (xs : List τ) : Writer τ ε Unit := fun out => (.ok (), out ++ xs)

/-- A result that writes nothing. -/
def lift (x : Except ε α) : Writer τ ε α := fun out => (x, out)

/-- The writer succeeds and appends exactly `xs`. -/
def Writes (w : Writer τ ε Unit) (xs : List τ) : Prop := ∀ out, w out = (.ok (), out ++ xs)

theorem writes_all (xs : List τ) : Writes (all xs : Writer τ ε Unit) xs := fun _ => rfl

theorem writes_pure : Writes (pure () : Writer τ ε Unit) [] := fun out => by
  rw [List.append_nil]
  rfl

/-- What follows a writer that succeeds goes on with its output. -/
theorem Writes.bind_apply {w : Writer τ ε Unit} {xs : List τ} (h : Writes w xs)
    (f : Unit → Writer τ ε Unit) (out : List τ) : (w >>= f) out = f () (out ++ xs) := by
  change ((w out) >>= fun p : Except ε Unit × List τ => ExceptT.bindCont f p.1 p.2 : Id _) = _
  rw [h out]
  rfl

theorem Writes.bind {w : Writer τ ε Unit} {f : Unit → Writer τ ε Unit} {xs ys : List τ}
    (h : Writes w xs) (h' : Writes (f ()) ys) : Writes (w >>= f) (xs ++ ys) := fun out => by
  rw [h.bind_apply, h' (out ++ xs), List.append_assoc]

/-- The writer always fails. -/
def Fails (w : Writer τ ε Unit) : Prop := ∀ out, ∃ e out', w out = (.error e, out')

/-- A writer that fails ends the writing. -/
theorem Fails.bind {w : Writer τ ε Unit} (h : Fails w) (f : Unit → Writer τ ε Unit) :
    Fails (w >>= f) := fun out => by
  obtain ⟨e, out', he⟩ := h out
  refine ⟨e, out', ?_⟩
  change ((w out) >>= fun p : Except ε Unit × List τ => ExceptT.bindCont f p.1 p.2 : Id _) = _
  rw [he]
  rfl

theorem Writes.bind_fails {w : Writer τ ε Unit} {f : Unit → Writer τ ε Unit} {xs : List τ}
    (h : Writes w xs) (h' : Fails (f ())) : Fails (w >>= f) := fun out => by
  obtain ⟨e, out', he⟩ := h' (out ++ xs)
  exact ⟨e, out', by rw [h.bind_apply, he]⟩

end Writer

end Foundations
