/-!
# Controllers

Each of two controllers has eight buttons. A falling strobe latches the buttons of both, and reads
shift them out, lowest first.

## Main definitions

* `Controller` — a controller
* `Controllers` — both, with their strobe
* `Controllers.strobeWith`, `Controllers.read` — the two registers
-/

namespace Famicom

/-- A controller: the buttons held down, and the latched ones not yet read. -/
structure Controller where
  buttons : UInt8 := 0
  shifter : UInt8 := 0
  deriving DecidableEq, Repr

/-- Both controllers and their strobe. -/
structure Controllers where
  first : Controller := {}
  second : Controller := {}
  strobe : Bool := false
  deriving DecidableEq, Repr

/-- Who holds a controller. -/
inductive Player where
  | first
  | second
  deriving DecidableEq, Repr

/-- The player with a number, counted from zero. -/
def Player.ofNumber? (number : Nat) : Option Player :=
  match number with
  | 0 => some .first
  | 1 => some .second
  | _ => none

namespace Controller

/-- Latches the buttons. -/
def latch (c : Controller) : Controller :=
  { c with shifter := c.buttons }

/-- A read: the first button while the strobe is high, else the next latched one. -/
def read (c : Controller) (strobe peek : Bool) : UInt8 × Controller :=
  if strobe then (c.buttons &&& 0x01, c)
  else (c.shifter &&& 0x01, if peek then c else { c with shifter := c.shifter >>> 1 })

end Controller

namespace Controllers

/-- The controller of a player. -/
def get (c : Controllers) : Player → Controller
  | .first => c.first
  | .second => c.second

/-- Changes the controller of a player. -/
def set (c : Controllers) (player : Player) (controller : Controller) : Controllers :=
  match player with
  | .first => { c with first := controller }
  | .second => { c with second := controller }

/-- Sets the buttons that a player holds down. -/
def press (c : Controllers) (player : Player) (buttons : UInt8) : Controllers :=
  c.set player { c.get player with buttons }

/-- Sets the strobe from bit 0. A falling strobe latches the buttons. -/
def strobeWith (c : Controllers) (data : UInt8) : Controllers :=
  let strobe := data &&& 0x01 != 0
  if c.strobe && !strobe then ⟨c.first.latch, c.second.latch, strobe⟩
  else { c with strobe }

/-- A read of a player's controller. -/
def read (c : Controllers) (player : Player) (peek : Bool) : UInt8 × Controllers :=
  let (bit, controller) := (c.get player).read c.strobe peek
  (bit, c.set player controller)

end Controllers

end Famicom
