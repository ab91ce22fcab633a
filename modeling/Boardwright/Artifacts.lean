import Boardwright.FileTree.Directories
import Boardwright.FileTree.Files

/-!
# Artifacts

A build writes files into a file tree.  The tree is kept together with the list of the files written, in
their order, so that a report can name them and a failed build still shows what it has done.

* **`Artifacts`**: a file tree with the files written to it.
* **`runAll`**: steps done one after the other, up to the first that fails.
-/

namespace Boardwright

/-- A file tree with the files written to it. -/
structure Artifacts where
  /-- The file tree. -/
  tree : FileTree
  /-- The files, in the order they were written. -/
  written : List Path := []

variable {α β ε : Type}

/-- Does a step for every element of a list, up to the first step that fails. -/
def runAll (step : β → α → α × Except ε Unit) : List β → α → α × Except ε Unit
  | [], a => (a, .ok ())
  | b :: rest, a =>
    match step b a with
    | (a, .error e) => (a, .error e)
    | (a, .ok ()) => runAll step rest a

end Boardwright
