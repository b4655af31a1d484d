import RubyLens.Address.Url
import RubyLens.Syntax.Build

/-!
The documents that a client has open, each under its locator, of whatever kind that is.
-/

namespace RubyLens

structure Document where
  source : Source
  version : Option Int

/-- Open documents, in the order in which they were opened. -/
structure Documents (L : Type := Url) where
  entries : List (L × Document)

namespace Documents

variable {L : Type}

def empty : Documents L := ⟨[]⟩

def urls (d : Documents L) : List L := d.entries.map Prod.fst

def size (d : Documents L) : Nat := d.entries.length

variable [DecidableEq L]

def get? (d : Documents L) (u : L) : Option Document := d.entries.lookup u

/-- Puts a document in place of the one under the same locator, or else behind the others. -/
def insertInto (u : L) (doc : Document) : List (L × Document) → List (L × Document)
  | [] => [(u, doc)]
  | e :: es => if e.1 = u then (u, doc) :: es else e :: insertInto u doc es

def insert (d : Documents L) (u : L) (doc : Document) : Documents L :=
  ⟨insertInto u doc d.entries⟩

def erase (d : Documents L) (u : L) : Documents L := ⟨d.entries.filter fun e => e.1 != u⟩

@[simp] theorem get?_empty (u : L) : empty.get? u = none := rfl

theorem get?_insert (d : Documents L) (u v : L) (doc : Document) :
    (d.insert u doc).get? v = if v = u then some doc else d.get? v := by
  simp only [insert, get?]
  induction d.entries with
  | nil =>
    by_cases hv : v = u
    · simp [insertInto, hv]
    · simp [insertInto, List.lookup_cons, beq_false_of_ne hv, hv]
  | cons e es ih =>
    obtain ⟨w, old⟩ := e
    by_cases hu : w = u
    · subst hu
      by_cases hv : v = w
      · simp [insertInto, hv]
      · simp [insertInto, List.lookup_cons, beq_false_of_ne hv, hv]
    · by_cases hv : v = w
      · simp [insertInto, hv, hu]
      · simp [insertInto, hu, List.lookup_cons, beq_false_of_ne hv, ih]

theorem get?_erase (d : Documents L) (u v : L) :
    (d.erase u).get? v = if v = u then none else d.get? v := by
  simp only [erase, get?]
  induction d.entries with
  | nil => simp
  | cons e es ih =>
    obtain ⟨w, doc⟩ := e
    by_cases hu : w = u
    · subst hu
      by_cases hv : v = w
      · simpa [hv] using ih
      · simp [List.lookup_cons, beq_false_of_ne hv, ih, hv]
    · by_cases hv : v = w
      · simp [hv, hu]
      · simp [List.lookup_cons, beq_false_of_ne hv, ih, hu]

end Documents

end RubyLens
