import Std.Data.TreeMap
import Mathlib.Data.List.Nodup
import Mathlib.Data.List.Perm.Subperm
import Mathlib.Data.List.TakeWhile

/-!
# Linked cells

A heap of cells that point to one another, and the lists that can be read off
it.  Reading or writing a cell that is not there is `none`.
-/

namespace GoSocket.Foundation

universe u

variable {α : Type u}

structure Cell (α : Type u) where
  value : α
  next : Option Nat
  deriving DecidableEq, Repr

abbrev CellHeap (α : Type u) := Std.TreeMap Nat (Cell α)

def setNext (heap : CellHeap α) (addr : Nat) (next : Option Nat) :
    Option (CellHeap α) :=
  heap[addr]?.map fun cell => heap.insert addr { cell with next }

/-- Go on while there is a cell that does not stop the search, with a pointer to
the cell passed last. -/
def walk (heap : CellHeap α) (stop : α → Bool) :
    Nat → Option Nat → Option Nat → Option (Option Nat × Option Nat)
  | _, last, none => some (last, none)
  | 0, _, some _ => none
  | fuel + 1, last, some current =>
      match heap[current]? with
      | none => none
      | some cell =>
          if stop cell.value then some (last, some current)
          else walk heap stop fuel (some current) cell.next

def link (heap : CellHeap α) (first : Option Nat) (addr : Nat) :
    Option Nat → Option Nat → Option (CellHeap α × Option Nat)
  | none, _ => (setNext heap addr first).map (·, some addr)
  | some last, none => (setNext heap last (some addr)).map (·, first)
  | some last, some current =>
      (setNext heap last (some addr)).bind fun heap =>
        (setNext heap addr (some current)).map (·, first)

/-- Take the cell out behind `last`, and delete it. -/
def unlink (heap : CellHeap α) (first last : Option Nat) (current : Nat) :
    Option (CellHeap α × Option Nat) :=
  match heap[current]?, last with
  | none, _ => none
  | some cell, none => some (heap.erase current, cell.next)
  | some cell, some last =>
      (setNext heap last cell.next).map fun heap => (heap.erase current, first)

/-- From `first` the cells with these addresses and values, up to `last`. -/
def Segment (heap : CellHeap α) (first : Option Nat) :
    List (Nat × α) → Option Nat → Prop
  | [], last => first = last
  | (addr, value) :: rest, last =>
      first = some addr ∧
        ∃ next, heap[addr]? = some { value, next } ∧ Segment heap next rest last

/-- The heap holds a list from `first` on, and nothing else. -/
structure Linked (heap : CellHeap α) (first : Option Nat)
    (cells : List (Nat × α)) : Prop where
  segment : Segment heap first cells none
  nodup : (cells.map Prod.fst).Nodup
  noLeak : ∀ addr ∈ heap, addr ∈ cells.map Prod.fst

variable {heap heap' : CellHeap α} {first last : Option Nat}
  {cells before after : List (Nat × α)}

/-! ## The heap -/

theorem getElem?_insert_self (heap : CellHeap α) (addr : Nat) (cell : Cell α) :
    (heap.insert addr cell)[addr]? = some cell :=
  Std.TreeMap.getElem?_insert_self

theorem getElem?_insert_of_ne (heap : CellHeap α) {addr other : Nat}
    (cell : Cell α) (h : other ≠ addr) :
    (heap.insert addr cell)[other]? = heap[other]? := by
  rw [Std.TreeMap.getElem?_insert, if_neg]
  intro heq
  exact h (Std.LawfulEqCmp.eq_of_compare heq).symm

theorem getElem?_erase_of_ne (heap : CellHeap α) {addr other : Nat}
    (h : other ≠ addr) : (heap.erase addr)[other]? = heap[other]? := by
  rw [Std.TreeMap.getElem?_erase, if_neg]
  intro heq
  exact h (Std.LawfulEqCmp.eq_of_compare heq).symm

theorem setNext_eq {addr : Nat} {cell : Cell α} (next : Option Nat)
    (h : heap[addr]? = some cell) :
    setNext heap addr next = some (heap.insert addr { cell with next }) := by
  rw [setNext, h]
  rfl

/-! ## Segments -/

namespace Segment

theorem append_iff : Segment heap first (before ++ after) last ↔
    ∃ middle, Segment heap first before middle ∧
      Segment heap middle after last := by
  induction before generalizing first with
  | nil => simp [Segment]
  | cons c rest ih =>
      constructor
      · rintro ⟨hfirst, next, hcell, hrest⟩
        obtain ⟨middle, hleft, hright⟩ := ih.mp hrest
        exact ⟨middle, ⟨hfirst, next, hcell, hleft⟩, hright⟩
      · rintro ⟨middle, ⟨hfirst, next, hcell, hleft⟩, hright⟩
        exact ⟨hfirst, next, hcell, ih.mpr ⟨middle, hleft, hright⟩⟩

theorem congr (h : Segment heap first cells last)
    (hsame : ∀ addr ∈ cells.map Prod.fst, heap'[addr]? = heap[addr]?) :
    Segment heap' first cells last := by
  induction cells generalizing first with
  | nil => exact h
  | cons c rest ih =>
      obtain ⟨hfirst, next, hcell, hrest⟩ := h
      refine ⟨hfirst, next, ?_, ih hrest fun addr haddr => ?_⟩
      · rw [hsame c.1 (by simp), hcell]
      · exact hsame addr (List.mem_cons_of_mem _ haddr)

theorem insert {addr : Nat} (h : Segment heap first cells last) (cell : Cell α)
    (haddr : addr ∉ cells.map Prod.fst) :
    Segment (heap.insert addr cell) first cells last :=
  h.congr fun _ hother => getElem?_insert_of_ne heap cell fun heq =>
    haddr (heq ▸ hother)

theorem erase {addr : Nat} (h : Segment heap first cells last)
    (haddr : addr ∉ cells.map Prod.fst) :
    Segment (heap.erase addr) first cells last :=
  h.congr fun _ hother => getElem?_erase_of_ne heap fun heq =>
    haddr (heq ▸ hother)

theorem getElem? {addr : Nat} {value : α} (h : Segment heap first cells last)
    (hmem : (addr, value) ∈ cells) :
    ∃ next, heap[addr]? = some { value, next } := by
  induction cells generalizing first with
  | nil => cases hmem
  | cons c rest ih =>
      obtain ⟨-, next, hcell, hrest⟩ := h
      rcases List.mem_cons.mp hmem with rfl | hmem
      · exact ⟨next, hcell⟩
      · exact ih hrest hmem

theorem setNext {l : Nat} {value : α}
    (h : Segment heap first (before ++ [(l, value)]) last)
    (hl : l ∉ before.map Prod.fst) (next : Option Nat) :
    Segment (heap.insert l { value, next }) first (before ++ [(l, value)]) next := by
  obtain ⟨middle, hbefore, hmiddle, -⟩ := append_iff.mp h
  refine append_iff.mpr ⟨middle, hbefore.insert _ hl, hmiddle, next, ?_, rfl⟩
  exact getElem?_insert_self heap l _

theorem first_eq (h : Segment heap first cells none) :
    first = cells.head?.map Prod.fst := by
  cases cells with
  | nil => exact h
  | cons c rest => exact h.1

end Segment

namespace Linked

theorem length_le (h : Linked heap first cells) : cells.length ≤ heap.size := by
  have hsub : cells.map Prod.fst ⊆ heap.keys := by
    intro addr haddr
    obtain ⟨⟨_, value⟩, hmem, rfl⟩ := List.mem_map.mp haddr
    obtain ⟨next, hcell⟩ := h.segment.getElem? hmem
    rw [Std.TreeMap.mem_keys, Std.TreeMap.mem_iff_isSome_getElem?, hcell]
    rfl
  have hle := (List.subperm_of_subset h.nodup hsub).length_le
  rwa [List.length_map, Std.TreeMap.length_keys] at hle

theorem notMem {addr : Nat} (h : Linked heap first cells) (haddr : heap[addr]? = none) :
    addr ∉ cells.map Prod.fst := by
  intro hmem
  obtain ⟨⟨_, value⟩, hcell, rfl⟩ := List.mem_map.mp hmem
  obtain ⟨next, hsome⟩ := h.segment.getElem? hcell
  rw [haddr] at hsome
  cases hsome

theorem noLeak_insert {l : Nat} {cell : Cell α}
    (h : ∀ a ∈ heap, a ∈ cells.map Prod.fst) (hl : l ∈ cells.map Prod.fst) :
    ∀ a ∈ heap.insert l cell, a ∈ cells.map Prod.fst := by
  intro a ha
  rcases Std.TreeMap.mem_insert.mp ha with heq | ha
  · rwa [← Std.LawfulEqCmp.eq_of_compare heq]
  · exact h a ha

theorem notMem_before {l : Nat} {w : α} {front : List (Nat × α)}
    (h : ((front ++ (l, w) :: after).map Prod.fst).Nodup) :
    l ∉ front.map Prod.fst ∧ l ∉ after.map Prod.fst := by
  have hperm : ((front ++ (l, w) :: after).map Prod.fst).Perm
      (l :: (front ++ after).map Prod.fst) :=
    List.perm_middle.map Prod.fst
  have hl := (List.nodup_cons.mp (hperm.nodup_iff.mp h)).1
  rwa [List.map_append, List.mem_append, not_or] at hl

theorem nodup_middle {addr : Nat} (value : α)
    (h : ((before ++ after).map Prod.fst).Nodup)
    (haddr : addr ∉ (before ++ after).map Prod.fst) :
    ((before ++ (addr, value) :: after).map Prod.fst).Nodup := by
  have hperm : ((before ++ (addr, value) :: after).map Prod.fst).Perm
      (addr :: (before ++ after).map Prod.fst) :=
    List.perm_middle.map Prod.fst
  exact hperm.nodup_iff.mpr (List.nodup_cons.mpr ⟨haddr, h⟩)

theorem link {addr : Nat} (h : Linked heap first (before ++ after)) (value : α)
    (haddr : heap[addr]? = none) :
    ∃ heap' first', Foundation.link (heap.insert addr { value, next := none }) first addr
        (before.getLast?.map Prod.fst) (after.head?.map Prod.fst) =
          some (heap', first') ∧
      Linked heap' first' (before ++ (addr, value) :: after) := by
  have hnot := h.notMem haddr
  have hnodup := nodup_middle value h.nodup hnot
  rw [List.map_append, List.mem_append, not_or] at hnot
  have hnew := getElem?_insert_self heap addr { value, next := none }
  obtain ⟨middle, hbefore, hafter⟩ := Segment.append_iff.mp h.segment
  have hleak : ∀ a ∈ heap.insert addr { value, next := none },
      a ∈ (before ++ (addr, value) :: after).map Prod.fst := by
    refine noLeak_insert (fun a ha => ?_) (by simp)
    have hmem := h.noLeak a ha
    simp only [List.map_append, List.mem_append, List.map_cons, List.mem_cons] at hmem ⊢
    tauto
  cases List.eq_nil_or_concat before with
  | inl hnil =>
      subst hnil
      cases hbefore
      have hlink := congrArg (Option.map (·, some addr)) (setNext_eq first hnew)
      refine ⟨_, _, hlink, ?_, hnodup, noLeak_insert hleak (by simp)⟩
      refine ⟨rfl, first, getElem?_insert_self _ _ _, ?_⟩
      exact (hafter.insert _ hnot.2).insert _ hnot.2
  | inr hconcat =>
      obtain ⟨front, ⟨l, w⟩, hconcat⟩ := hconcat
      rw [List.concat_eq_append] at hconcat
      subst hconcat
      obtain ⟨next, hl⟩ := hbefore.getElem? (show (l, w) ∈ front ++ [(l, w)] by simp)
      have hne : l ≠ addr := fun heq => hnot.1 (by simp [heq])
      have hfront : l ∉ front.map Prod.fst ∧ l ∉ after.map Prod.fst := by
        apply notMem_before (w := w)
        simpa using h.nodup
      rw [← getElem?_insert_of_ne heap { value, next := none } hne] at hl
      rw [← getElem?_insert_of_ne _ { value := w, next := some addr } hne.symm] at hnew
      have hset := setNext_eq (some addr) hl
      have hsegment :=
        (hbefore.insert { value, next := none } hnot.1).setNext hfront.1 (some addr)
      have hrest := (hafter.insert { value, next := none } hnot.2).insert
        { value := w, next := some addr } hfront.2
      let cell : Cell α := { value := w, next := some addr }
      have hleak' : ∀ a ∈ (heap.insert addr { value, next := none }).insert l cell, a ∈ _ :=
        noLeak_insert hleak (show l ∈ _ by simp)
      cases after with
      | nil =>
          refine ⟨(heap.insert addr { value, next := none }).insert l
            { value := w, next := some addr }, first, ?_, ?_, hnodup, hleak'⟩
          · simp [Foundation.link, hset]
          · exact Segment.append_iff.mpr ⟨_, hsegment, rfl, none, hnew, rfl⟩
      | cons c rest =>
          have hset' := setNext_eq (some c.1) hnew
          obtain ⟨rfl, -⟩ := hafter
          refine ⟨((heap.insert addr { value, next := none }).insert l
            { value := w, next := some addr }).insert addr { value, next := some c.1 },
            first, ?_, ?_, hnodup, noLeak_insert hleak' (by simp)⟩
          · simp [Foundation.link, hset, hset']
          · refine Segment.append_iff.mpr ⟨_, hsegment.insert _ hnot.1, rfl, _, ?_,
              hrest.insert _ hnot.2⟩
            exact getElem?_insert_self _ _ _

theorem unlink {addr : Nat} {value : α}
    (h : Linked heap first (before ++ (addr, value) :: after)) :
    ∃ heap' first', Foundation.unlink heap first (before.getLast?.map Prod.fst) addr =
          some (heap', first') ∧
      Linked heap' first' (before ++ after) := by
  have hnot := notMem_before h.nodup
  obtain ⟨middle, hbefore, rfl, next, haddr, hafter⟩ := Segment.append_iff.mp h.segment
  have hnodup : ((before ++ after).map Prod.fst).Nodup := by
    have hsub : (before ++ after).Sublist (before ++ (addr, value) :: after) :=
      (List.Sublist.refl before).append (List.sublist_cons_self _ after)
    exact h.nodup.sublist (hsub.map Prod.fst)
  have hleak : ∀ heap' : CellHeap α, (∀ a ∈ heap', a ∈ heap) →
      ∀ a ∈ heap'.erase addr, a ∈ (before ++ after).map Prod.fst := by
    intro heap' hsub a ha
    obtain ⟨hne, ha⟩ := Std.TreeMap.mem_erase.mp ha
    have hmem := h.noLeak a (hsub a ha)
    have hne : a ≠ addr := by
      rintro rfl
      exact hne Std.ReflCmp.compare_self
    simp only [List.map_append, List.mem_append, List.map_cons, List.mem_cons] at hmem ⊢
    tauto
  cases List.eq_nil_or_concat before with
  | inl hnil =>
      subst hnil
      cases hbefore
      refine ⟨heap.erase addr, next, ?_, hafter.erase hnot.2, hnodup,
        hleak heap fun _ => id⟩
      simp [Foundation.unlink, haddr]
  | inr hconcat =>
      obtain ⟨front, ⟨l, w⟩, hconcat⟩ := hconcat
      rw [List.concat_eq_append] at hconcat
      subst hconcat
      obtain ⟨_, hl⟩ := hbefore.getElem? (show (l, w) ∈ front ++ [(l, w)] by simp)
      have hfront : l ∉ front.map Prod.fst ∧ l ∉ ((addr, value) :: after).map Prod.fst := by
        apply notMem_before (w := w)
        simpa using h.nodup
      have hset := setNext_eq next hl
      have hsegment := hbefore.setNext hfront.1 next
      have hrest : l ∉ after.map Prod.fst := fun hmem =>
        hfront.2 (List.mem_cons_of_mem _ hmem)
      refine ⟨(heap.insert l { value := w, next }).erase addr, first, ?_, ?_, hnodup,
        hleak _ ?_⟩
      · simp [Foundation.unlink, haddr, hset]
      · exact Segment.append_iff.mpr ⟨next, hsegment.erase hnot.1,
          (hafter.insert _ hrest).erase hnot.2⟩
      · intro a ha
        rcases Std.TreeMap.mem_insert.mp ha with heq | ha
        · rw [← Std.LawfulEqCmp.eq_of_compare heq, Std.TreeMap.mem_iff_isSome_getElem?, hl]
          rfl
        · exact ha

theorem tail {addr : Nat} {value : α} (h : Linked heap first ((addr, value) :: after)) :
    first = some addr ∧ ∃ next, heap[addr]? = some { value, next } ∧
      Linked (heap.erase addr) next after := by
  have hfront : Linked heap first ([] ++ (addr, value) :: after) := h
  obtain ⟨heap', first', hunlink, hlinked⟩ := hfront.unlink
  obtain ⟨hfirst, next, haddr, -⟩ := h.segment
  refine ⟨hfirst, next, haddr, ?_⟩
  simp only [Foundation.unlink, List.getLast?_nil, Option.map_none, haddr,
    Option.some.injEq, Prod.mk.injEq] at hunlink
  obtain ⟨rfl, rfl⟩ := hunlink
  exact hlinked

end Linked

theorem exists_split (stop : α → Bool) (cells : List (Nat × α)) :
    ∃ before after, cells = before ++ after ∧
      (∀ c ∈ before, stop c.2 = false) ∧ ∀ c ∈ after.head?, stop c.2 = true := by
  refine ⟨cells.takeWhile (fun c => !stop c.2), cells.dropWhile (fun c => !stop c.2),
    List.takeWhile_append_dropWhile.symm, ?_, ?_⟩
  · intro c hc
    simpa using List.mem_takeWhile_imp hc
  · intro c hc
    have hnot := List.head?_dropWhile_not (fun c => !stop c.2) cells
    rw [Option.mem_def.mp hc] at hnot
    simpa using hnot

theorem walk_eq (stop : α → Bool) {fuel : Nat}
    (h : Segment heap first (before ++ after) none)
    (hfuel : (before ++ after).length ≤ fuel)
    (hbefore : ∀ c ∈ before, stop c.2 = false)
    (hafter : ∀ c ∈ after.head?, stop c.2 = true) (last : Option Nat) :
    walk heap stop fuel last first =
      some ((before.getLast?.map Prod.fst).or last, after.head?.map Prod.fst) := by
  induction before generalizing first last fuel with
  | nil =>
      cases after with
      | nil =>
          cases h
          cases fuel <;> simp [walk]
      | cons c rest =>
          obtain ⟨rfl, next, hcell, -⟩ := h
          cases fuel with
          | zero => simp at hfuel
          | succ fuel => simp [walk, hcell, hafter c (by simp)]
  | cons c rest ih =>
      obtain ⟨rfl, next, hcell, hrest⟩ := h
      cases fuel with
      | zero => simp at hfuel
      | succ fuel =>
          have hnext := ih hrest (by simpa using hfuel)
            (fun c hc => hbefore c (List.mem_cons_of_mem _ hc)) (some c.1)
          rw [walk, hcell]
          simp only [hbefore c (by simp), Bool.false_eq_true, if_false, hnext]
          cases hlast : rest.getLast? with
          | none => simp [List.getLast?_cons, hlast]
          | some l => simp [List.getLast?_cons, hlast]

end GoSocket.Foundation
