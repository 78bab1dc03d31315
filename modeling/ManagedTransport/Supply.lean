import ManagedTransport.Bytes

/-!
# Random octets

Nonces and fresh cookies are blocks of thirty-two random octets.  A supply
hands them out in order: draw number `i` gives octets `32 i` to `32 i + 31`,
with zeros where the supply has run out.
-/

namespace ManagedTransport

/-- Random octets and how many blocks of them are used. -/
structure Supply where
  octets : Bytes
  drawn : Nat

namespace Supply

/-- A supply from which nothing has been drawn. -/
def fresh (octets : Bytes) : Supply := ⟨octets, 0⟩

/-- The block that draw number `i` gives. -/
def block (s : Supply) (i : Nat) : Bytes := Bytes.padded 32 (s.octets.drop (32 * i))

/-- Draws the next block. -/
def draw (s : Supply) : Bytes × Supply := (s.block s.drawn, { s with drawn := s.drawn + 1 })

@[simp] theorem length_block (s : Supply) (i : Nat) : (s.block i).length = 32 :=
  Bytes.length_padded _ _

@[simp] theorem draw_fst (s : Supply) : s.draw.1 = s.block s.drawn := rfl

@[simp] theorem drawn_draw (s : Supply) : s.draw.2.drawn = s.drawn + 1 := rfl

@[simp] theorem octets_draw (s : Supply) : s.draw.2.octets = s.octets := rfl

/-- The next `n` blocks. -/
def drawMany : Nat → Supply → List Bytes × Supply
  | 0, s => ([], s)
  | n + 1, s =>
    let (b, s) := s.draw
    let (bs, s) := drawMany n s
    (b :: bs, s)

end Supply

end ManagedTransport
