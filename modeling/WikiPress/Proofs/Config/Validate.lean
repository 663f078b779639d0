import WikiPress.Config.Load
import WikiPress.Proofs.Files.Lexical

/-!
# WikiPress.Proofs.Config.Validate

What a checked configuration is known to say.

A check that fails ends the checking, so a configuration is good exactly if it passes every check
(`validate_eq_ok_iff`). What relies on a good configuration reads it off this one fact.
-/

namespace WikiPress.Config

open WikiPress.Files (ProperName)

variable {config : Config}

/-! ## Single checks -/

theorem requireSome_eq_ok_iff (name text : String) :
    requireSome name text = .ok () ↔ text ≠ "" := by
  rw [requireSome]
  split
  · next hempty => simpa using hempty
  · next hsome => simpa using hsome

theorem requireSome_bind_eq_ok_iff (name text : String) (rest : Unit → Except Error Unit) :
    (requireSome name text >>= rest) = .ok () ↔ text ≠ "" ∧ rest () = .ok () := by
  rw [← requireSome_eq_ok_iff name]
  cases requireSome name text with
  | ok _ => exact (and_iff_right rfl).symm
  | error e => exact iff_of_false (fun h => by cases h) (fun h => by cases h.1)

theorem throw_or_eq_ok_iff (fails : Prop) [Decidable fails] (e : Error)
    (after : Unit → Except Error Unit) (rest : Except Error Unit) :
    (if fails then throw e >>= after else rest) = .ok () ↔ ¬ fails ∧ rest = .ok () := by
  split
  · next hfails => exact iff_of_false (fun h => by cases h) (fun h => h.1 hfails)
  · next hpasses => exact (and_iff_right hpasses).symm

/-! ## All checks -/

/-- A configuration is good if the attachments folder has the name of a file, the index name ends
as names of Markdown files do, and diagrams have a language. -/
theorem validate_eq_ok_iff (config : Config) :
    config.validate = .ok () ↔
      ProperName config.attachmentsFolder ∧
        ".md".toList.isSuffixOf config.indexName.toList = true ∧ config.diagramLanguage ≠ "" := by
  have hchecks : config.validate = .ok () ↔
      config.attachmentsFolder ≠ "" ∧
        ¬ (config.attachmentsFolder.toList.contains '/' || config.attachmentsFolder = "."
          || config.attachmentsFolder = "..") = true ∧
        config.indexName ≠ "" ∧ ¬ (!".md".toList.isSuffixOf config.indexName.toList) = true ∧
        config.diagramLanguage ≠ "" := by
    unfold validate
    rw [requireSome_bind_eq_ok_iff, throw_or_eq_ok_iff, requireSome_bind_eq_ok_iff,
      throw_or_eq_ok_iff, requireSome_eq_ok_iff]
  rw [hchecks]
  constructor
  · rintro ⟨hempty, hsingle, -, hsuffix, hlanguage⟩
    simp only [Bool.or_eq_true, List.contains_iff_mem, decide_eq_true_eq, not_or] at hsingle
    exact ⟨⟨hempty, hsingle.1.1, hsingle.1.2, hsingle.2⟩, by simpa using hsuffix, hlanguage⟩
  · rintro ⟨hfolder, hsuffix, hlanguage⟩
    refine ⟨hfolder.nonempty, ?_, ?_, by simpa using hsuffix, hlanguage⟩
    · simp [hfolder.slash, hfolder.dot, hfolder.up]
    · rintro hempty
      rw [hempty] at hsuffix
      exact absurd hsuffix (by decide)

theorem properName_of_validate (h : config.validate = .ok ()) :
    ProperName config.attachmentsFolder :=
  ((validate_eq_ok_iff config).1 h).1

/-- An index name ends as names of Markdown files do. -/
theorem suffix_of_validate (h : config.validate = .ok ()) :
    ".md".toList.isSuffixOf config.indexName.toList = true :=
  ((validate_eq_ok_iff config).1 h).2.1

end WikiPress.Config
