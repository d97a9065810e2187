import Mathlib.Data.List.Nodup

/-!
# A line for a queue

Waiters stand in a line for the items of a queue, first come, first served: a fair lock over the
receiving end of a channel, which the first waiter holds until there is an item for it. A waiter is
`Starved` if those ahead of it take all the items, and stays so until an item is put or a waiter
leaves. One that is `Ahead` of another stays ahead until it is served or leaves. A log says what has
happened to a line; items are served in the order in which they were put, and waiters in the order
in which they joined (`Fair`).
-/

namespace Foundations

/-- The waiters, the first of which holds the lock, and the items of the queue. -/
structure Line (W M : Type*) where
  waiting : List W
  items : List M
  deriving DecidableEq, Repr

namespace Line

variable {W M : Type*}

def empty : Line W M := ⟨[], []⟩

/-- A waiter joins the line. -/
def join (l : Line W M) (w : W) : Line W M := { l with waiting := l.waiting ++ [w] }

/-- An item is put into the queue. -/
def put (l : Line W M) (m : M) : Line W M := { l with items := l.items ++ [m] }

/-- The first waiter takes the first item. -/
def serve (l : Line W M) : Option (W × M × Line W M) :=
  match l.waiting, l.items with
  | w :: waiting, m :: items => some (w, m, ⟨waiting, items⟩)
  | _, _ => none

/-- A waiter leaves the line. -/
def leave [DecidableEq W] (l : Line W M) (w : W) : Line W M :=
  { l with waiting := l.waiting.erase w }

variable {l l' : Line W M} {v w x : W} {m : M}

theorem serve_eq_some :
    l.serve = some (w, m, l') ↔ l.waiting = w :: l'.waiting ∧ l.items = m :: l'.items := by
  obtain ⟨waiting, items⟩ := l
  obtain ⟨waiting', items'⟩ := l'
  rcases waiting with _ | ⟨v, waiting⟩ <;> rcases items with _ | ⟨k, items⟩ <;>
    simp [serve, and_assoc, and_left_comm]

theorem nodup_join (h : l.waiting.Nodup) (hw : w ∉ l.waiting) : (l.join w).waiting.Nodup := by
  rw [join, ← List.concat_eq_append]
  exact List.Nodup.concat hw h

/-! ## Starved waiters -/

section Starved

variable [DecidableEq W]

/-- The waiter is in the line, and those ahead of it take all the items. -/
def Starved (w : W) (l : Line W M) : Prop :=
  w ∈ l.waiting ∧ l.items.length ≤ l.waiting.idxOf w

/-- A waiter that is not the first moves up when the first is served. -/
theorem idxOf_of_serve (h : l.serve = some (v, m, l')) (hne : v ≠ w) :
    l.waiting.idxOf w = l'.waiting.idxOf w + 1 := by
  rw [(serve_eq_some.1 h).1, List.idxOf_cons_ne _ hne]

theorem Starved.serve_ne (hw : l.Starved w) (h : l.serve = some (v, m, l')) : v ≠ w := by
  rintro rfl
  obtain ⟨hwaiting, hitems⟩ := serve_eq_some.1 h
  have hle := hw.2
  rw [hwaiting, hitems, List.idxOf_cons_self, List.length_cons] at hle
  exact absurd hle (Nat.not_succ_le_zero _)

/-- **A starved waiter stays starved** when others are served. -/
theorem Starved.serve (hw : l.Starved w) (h : l.serve = some (v, m, l')) : l'.Starved w := by
  have hne := hw.serve_ne h
  have hidx := idxOf_of_serve h hne
  obtain ⟨hwaiting, hitems⟩ := serve_eq_some.1 h
  obtain ⟨hmem, hle⟩ := hw
  refine ⟨?_, ?_⟩
  · rw [hwaiting] at hmem
    exact (List.mem_cons.1 hmem).resolve_left (Ne.symm hne)
  · rw [hidx, hitems, List.length_cons] at hle
    exact Nat.le_of_succ_le_succ hle

theorem Starved.join (hw : l.Starved w) (x : W) : (l.join x).Starved w :=
  ⟨List.mem_append_left _ hw.1, by rw [Line.join, List.idxOf_append_of_mem hw.1]; exact hw.2⟩

/-- A line with more waiters than items starves one, and only such a line does. -/
theorem exists_starved_iff (h : l.waiting.Nodup) :
    (∃ w, l.Starved w) ↔ l.items.length < l.waiting.length := by
  constructor
  · rintro ⟨w, hmem, hle⟩
    exact Nat.lt_of_le_of_lt hle (List.idxOf_lt_length_of_mem hmem)
  · intro hlt
    have hlast : l.items.length < l.waiting.length := hlt
    exact ⟨l.waiting[l.items.length], List.getElem_mem hlast,
      Nat.le_of_eq (h.idxOf_getElem _ hlast).symm⟩

end Starved

/-! ## Waiters ahead of others -/

/-- The waiter `x` is in the line ahead of `w`. -/
def Ahead (x w : W) (l : Line W M) : Prop := List.Sublist [x, w] l.waiting

instance [DecidableEq W] (x w : W) (l : Line W M) : Decidable (l.Ahead x w) :=
  inferInstanceAs (Decidable (List.Sublist _ _))

theorem Ahead.mem (h : l.Ahead x w) : x ∈ l.waiting := h.subset (by simp)

theorem Ahead.mem_right (h : l.Ahead x w) : w ∈ l.waiting := h.subset (by simp)

theorem Ahead.join (h : l.Ahead x w) (v : W) : (l.join v).Ahead x w :=
  List.Sublist.trans h (List.sublist_append_left _ _)

/-- The first waiter is ahead of all others. -/
theorem ahead_of_first {rest : List W} (h : l.waiting = x :: rest) (hw : w ∈ rest) :
    l.Ahead x w := by
  rw [Ahead, h]
  exact (List.singleton_sublist.2 hw).cons_cons x

/-- Who joins the line is behind all others. -/
theorem ahead_join_self (h : x ∈ l.waiting) : (l.join w).Ahead x w :=
  List.Sublist.append (List.singleton_sublist.2 h) (List.Sublist.refl [w])

theorem mem_of_ahead_join (h : (l.join v).Ahead x w) : x ∈ l.waiting := by
  obtain ⟨l₁, l₂, heq, h₁, h₂⟩ := List.sublist_append_iff.1 h
  rcases l₁ with _ | ⟨y, l₁⟩
  · have hlen := h₂.length_le
    rw [List.nil_append] at heq
    rw [← heq] at hlen
    exact absurd hlen (by simp)
  · obtain ⟨rfl, -⟩ := List.cons.inj heq
    exact h₁.subset (List.mem_cons_self)

theorem ahead_of_serve (h : l.serve = some (v, m, l')) (hx : l'.Ahead x w) : l.Ahead x w := by
  rw [Ahead, (serve_eq_some.1 h).1]
  exact hx.cons v

/-- Who is ahead stays ahead when another is served, who is not the one behind. -/
theorem Ahead.serve (hx : l.Ahead x w) (h : l.serve = some (v, m, l')) (hne : v ≠ x) :
    l'.Ahead x w := by
  rw [Ahead, (serve_eq_some.1 h).1] at hx
  cases hx with
  | cons _ hx => exact hx
  | cons_cons => exact absurd rfl hne

theorem Ahead.ne (hx : l.Ahead x w) (hnodup : l.waiting.Nodup) : x ≠ w := by
  have hpair : [x, w].Nodup := List.Nodup.sublist hx hnodup
  simpa using hpair

section Leaving

variable [DecidableEq W]

theorem ahead_of_leave (hx : (l.leave v).Ahead x w) : l.Ahead x w :=
  List.Sublist.trans hx List.erase_sublist

theorem Ahead.leave (hx : l.Ahead x w) (hvx : v ≠ x) (hvw : v ≠ w) : (l.leave v).Ahead x w := by
  have herase := List.Sublist.erase v hx
  rwa [List.erase_of_not_mem (by simp [hvx, hvw])] at herase

end Leaving

/-! ## Logs -/

/-- What happens to a line. -/
inductive Event (W M : Type*)
  | joined (w : W)
  | put (m : M)
  | served (w : W) (m : M)
  deriving DecidableEq, Repr

namespace Event

def join : Event W M → Option W
  | joined w => some w
  | _ => none

def item : Event W M → Option M
  | put m => some m
  | _ => none

def service : Event W M → Option (W × M)
  | served w m => some (w, m)
  | _ => none

end Event

/-- The items are served in the order in which they were put, and none is lost; the waiters are
served in the order in which they joined. -/
structure Fair (log : List (Event W M)) (l : Line W M) : Prop where
  items : log.filterMap Event.item = (log.filterMap Event.service).map Prod.snd ++ l.items
  waiting : ((log.filterMap Event.service).map Prod.fst ++ l.waiting).Sublist
    (log.filterMap Event.join)

theorem filterMap_concat {α β : Type*} (f : α → Option β) (log : List α) (e : α) :
    (log ++ [e]).filterMap f = log.filterMap f ++ (f e).toList := by
  rw [List.filterMap_append, List.filterMap_cons, List.filterMap_nil]
  cases f e <;> rfl

namespace Fair

variable {log : List (Event W M)}

theorem join (hl : Fair log l) (w : W) : Fair (log ++ [.joined w]) (l.join w) := by
  constructor
  · rw [filterMap_concat, filterMap_concat]
    simpa [Event.item, Event.service, Line.join] using hl.items
  · rw [filterMap_concat, filterMap_concat]
    have happend := hl.waiting.append (List.Sublist.refl [w])
    simpa [Event.join, Event.service, Line.join] using happend

theorem put (hl : Fair log l) (m : M) : Fair (log ++ [.put m]) (l.put m) := by
  constructor
  · rw [filterMap_concat, filterMap_concat]
    simp [Event.item, Event.service, Line.put, hl.items]
  · rw [filterMap_concat, filterMap_concat]
    simpa [Event.join, Event.service, Line.put] using hl.waiting

theorem serve (hl : Fair log l) (h : l.serve = some (w, m, l')) :
    Fair (log ++ [.served w m]) l' := by
  obtain ⟨hwaiting, hitems⟩ := serve_eq_some.1 h
  constructor
  · rw [filterMap_concat, filterMap_concat]
    simpa [Event.item, Event.service, hitems] using hl.items
  · rw [filterMap_concat, filterMap_concat]
    simpa [Event.join, Event.service, hwaiting] using hl.waiting

/-- A waiter that leaves does not change the order of the others, and takes no item. -/
theorem leave [DecidableEq W] (hl : Fair log l) (w : W) : Fair log (l.leave w) where
  items := hl.items
  waiting := ((List.Sublist.refl _).append List.erase_sublist).trans hl.waiting

end Fair

end Line

end Foundations
