import EndpointConsole.BaseUrls
import EndpointConsole.Proofs.Files.Beside

/-!
Replacing the file of base URLs, which is written beside itself and then renamed. When all of it
goes well the file holds the text, whatever its path is (`readText_writeFile`). When something
goes wrong the file is as it was (`writeFile_leaves`), unless making the folder that its path goes
through already brings a file to light.
-/
namespace EndpointConsole.BaseUrls

variable {fs after : Files} {path content : Text}

/-- The operations of a write that goes well. -/
theorem writeFile_eq_true (written : writeFile fs path content = (after, true)) :
    ∃ made beside, fs.createFolders ((Path.parent? path).getD []) = .ok made ∧
      made.write (Path.withExtension "json.tmp".toList path) (Utf8.encode content) = .ok beside ∧
        beside.rename (Path.withExtension "json.tmp".toList path) path = .ok after := by
  rw [writeFile] at written
  split at written
  · cases written
  · next made folders =>
    dsimp only at written
    split at written
    · cases written
    · next beside file =>
      split at written
      · cases written
      · next renamed =>
        cases written
        exact ⟨made, beside, folders, file, renamed⟩

/-- A file that is replaced holds the text. -/
theorem readText_writeFile (written : writeFile fs path content = (after, true)) : after.readText path = .ok content := by
  obtain ⟨made, beside, _, file, renamed⟩ := writeFile_eq_true written
  exact Files.readText_rename (by decide) (by decide) file renamed

/-- What an attempt to write a text leaves: what replacing the file makes of the files if all of it goes
    well, and anything with the file as it was if it fails, for whatever reason. -/
def Leaves (path content : Text) (before after : Files) : Bool → Prop
  | true => writeFile before path content = (after, true)
  | false => after.readText path = before.readText path

theorem leaves_writeFile (good : (writeFile fs path content).2 = true) :
    Leaves path content fs (writeFile fs path content).1 true := Prod.ext rfl good

/-- Replacing the file is such an attempt. -/
theorem writeFile_leaves
    (hidden : ∀ made, fs.createFolders ((Path.parent? path).getD []) = .ok made → made.readText path = fs.readText path) :
    Leaves path content fs (writeFile fs path content).1 (writeFile fs path content).2 := by
  cases folders : fs.createFolders ((Path.parent? path).getD []) with
  | error failure =>
    have stopped : writeFile fs path content = (fs, false) := by simp only [writeFile, folders]
    rw [stopped]
    rfl
  | ok made =>
    have unchanged := hidden made folders
    cases file : made.write (Path.withExtension "json.tmp".toList path) (Utf8.encode content) with
    | error failure =>
      have stopped : writeFile fs path content = (made, false) := by simp only [writeFile, folders, file]
      rw [stopped]
      exact unchanged
    | ok beside =>
      cases renamed : beside.rename (Path.withExtension "json.tmp".toList path) path with
      | error failure =>
        have stopped : writeFile fs path content = (beside, false) := by simp only [writeFile, folders, file, renamed]
        rw [stopped]
        exact (Files.readText_of_rename_eq_error (by decide) (by decide) file renamed).trans unchanged
      | ok after =>
        have done : writeFile fs path content = (after, true) := by simp only [writeFile, folders, file, renamed]
        rw [done]
        exact done

end EndpointConsole.BaseUrls
