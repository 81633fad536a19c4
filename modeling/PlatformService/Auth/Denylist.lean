import PlatformService.Auth.Password

/-!
# The denylist file

`ps_password_denylist_load`: the file is read into one buffer, its lines are terminated in
place, and the array of pointers to them is sorted by `strcmp`. The bytes of a line are
those that a pointer sees once the loop is over.
-/

namespace PlatformService.Password

/-- The buffer, the start of the current line and the pointers to the lines so far. -/
structure LineScan where
  buf : Bytes
  lineStart : Nat
  lines : List Nat
  deriving DecidableEq, Repr

/-- One turn of the splitting loop, at position `p`. -/
def LineScan.step (scan : LineScan) (p : Nat) : LineScan :=
  if scan.buf[p]? ≠ some 10 then scan
  else
    let terminated := scan.buf.set p 0
    let linelen := p - scan.lineStart
    let last := scan.lineStart + linelen - 1
    let buf := if 0 < linelen ∧ terminated[last]? = some 13 then terminated.set last 0 else terminated
    { buf
      lineStart := p + 1
      lines := if buf[scan.lineStart]? ≠ some 0 then scan.lines ++ [scan.lineStart] else scan.lines }

/-- The splitting loop over a buffer of `nread` octets with a NUL behind them. -/
def splitLines (content : Bytes) : LineScan :=
  (List.range content.length).foldl LineScan.step ⟨content ++ [0], 0, []⟩

/-- The pointers with the one to a last line that no newline ends. -/
def LineScan.pointers (scan : LineScan) (nread : Nat) : List Nat :=
  if scan.lineStart < nread ∧ scan.buf[scan.lineStart]? ≠ some 0 then scan.lines ++ [scan.lineStart]
  else scan.lines

/-- `compare_lines`, as the order `qsort` sorts by. -/
def compareLines (left right : Bytes) : Bool := strcmp left right ≠ .gt

/-- `ps_password_denylist_load` of a file it can open and has memory for: the sorted lines. -/
def denylistLoad (content : Bytes) : List Bytes :=
  let scan := splitLines content
  ((scan.pointers content.length).map fun start => cString (scan.buf.drop start)).mergeSort compareLines

end PlatformService.Password
