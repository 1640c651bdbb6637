import Cqasm.Number.Transcendental

/-! The elementary functions on floats, each rounded once from the exact result to the nearest float.

An enclosure decides the rounding when both its ends round to the same float. No value of these functions
at a rational argument lies half way between two floats, apart from the arguments treated on their own, so
a higher precision decides in the end. -/
namespace Cqasm.Number

open Float.Model (UnpackedFloat Format)
open Float.Model.UnpackedFloat (Sign)

def nan : Float := 0.0 / 0.0

def infinity : Float := 1.0 / 0.0

def nearest (n e : Int) : Float :=
  .ofModel (.pack (UnpackedFloat.normalize Format.binary64 n e .positive))

def Enclosure.float? (p : Nat) (x : Enclosure) : Option Float :=
  let low := nearest x.lo (-p)
  if low = nearest x.hi (-p) then some low else none

def precisions : List Nat := [192, 640, 2560, 10240]

def settle (enclose : Nat → Option Enclosure) : Float :=
  (precisions.findSome? fun p => (enclose p).bind (·.float? p)).getD nan

def oddFunction (limit : Float) (enclose : Nat → Enclosure → Option Enclosure) (x : Float) : Float :=
  match x.toModel.unpack with
  | .notANumber => nan
  | .zero _ => x
  | .infinity .positive => limit
  | .infinity .negative => -limit
  | .finite .positive m e _ => settle fun p => enclose p (.ofDyadic p m e)
  | .finite .negative m e _ => -(settle fun p => enclose p (.ofDyadic p m e))

def exp (x : Float) : Float :=
  match x.toModel.unpack with
  | .notANumber => nan
  | .zero _ => 1.0
  | .infinity .positive => infinity
  | .infinity .negative => 0.0
  | .finite s m e _ => settle fun p => some (.exp p (.ofDyadic p (s.apply m) e))

def log (x : Float) : Float :=
  match x.toModel.unpack with
  | .notANumber => nan
  | .zero _ => -infinity
  | .infinity .positive => infinity
  | .infinity .negative => nan
  | .finite .negative _ _ _ => nan
  | .finite .positive m e _ =>
    if x == 1.0 then 0.0 else settle fun p => some (.logDyadic p m e)

def sin (x : Float) : Float := oddFunction nan (fun p x => some (.sin p x)) x

def cos (x : Float) : Float :=
  match x.toModel.unpack with
  | .notANumber => nan
  | .infinity _ => nan
  | .zero _ => 1.0
  | .finite _ m e _ => settle fun p => some (.cos p (.ofDyadic p m e))

def tan (x : Float) : Float := oddFunction nan Enclosure.tan? x

def sinh (x : Float) : Float := oddFunction infinity (fun p x => some (.sinh p x)) x

def cosh (x : Float) : Float :=
  match x.toModel.unpack with
  | .notANumber => nan
  | .infinity _ => infinity
  | .zero _ => 1.0
  | .finite _ m e _ => settle fun p => some (.cosh p (.ofDyadic p m e))

def tanh (x : Float) : Float := oddFunction 1.0 Enclosure.tanh x

def asin (x : Float) : Float :=
  if x.abs < 1.0 then oddFunction nan Enclosure.asin? x
  else if x == 1.0 then settle fun p => some (.halfPi p)
  else if x == -1.0 then -(settle fun p => some (.halfPi p))
  else nan

def acos (x : Float) : Float :=
  if x == 1.0 then 0.0
  else if x == -1.0 then settle fun p => some ((Enclosure.halfPi p).mulInt 2)
  else if x.abs < 1.0 then
    match x.toModel.unpack with
    | .finite s m e _ => settle fun p => Enclosure.acos? p (.ofDyadic p (s.apply m) e)
    | _ => settle fun p => some (.halfPi p)
  else nan

def atan (x : Float) : Float :=
  oddFunction (settle fun p => some (.halfPi p)) (fun p x => some (.atan p x)) x

def asinh (x : Float) : Float := oddFunction infinity Enclosure.asinh? x

def acosh (x : Float) : Float :=
  if x == 1.0 then 0.0 else if 1.0 < x then oddFunction infinity Enclosure.acosh? x else nan

def atanh (x : Float) : Float :=
  if x == 1.0 then infinity
  else if x == -1.0 then -infinity
  else if x.abs < 1.0 then oddFunction nan Enclosure.atanh? x
  else nan

end Cqasm.Number
