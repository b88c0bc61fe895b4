import StageTemplates.Files.VariablesFile
import StageTemplates.Proofs.DistinctNames

set_option autoImplicit false

/-!
The data of a file names each entry of a dictionary once, whatever the text repeats.
-/
namespace StageTemplates

namespace Json

variable {α : Type} {member : List Char → Option (α × List Char)} {holds : α → Prop}

theorem forall_members (each : ∀ text item rest, member text = some (item, rest) → holds item)
    {close : Char} {budget : Nat} {text rest : List Char} {items : List α}
    (given : members member close budget text = some (items, rest)) :
    ∀ item ∈ items, holds item := by
  induction budget generalizing text items with
  | zero => cases given
  | succ budget ih =>
      rw [members, Option.bind_eq_bind, Option.bind_eq_some_iff] at given
      obtain ⟨⟨first, after⟩, read, given⟩ := given
      have here : holds first := each _ _ _ read
      dsimp only at given
      split at given
      · rw [Option.bind_eq_bind, Option.bind_eq_some_iff] at given
        obtain ⟨⟨others, left⟩, later, given⟩ := given
        cases given
        exact List.forall_mem_cons.mpr ⟨here, ih later⟩
      · split at given
        · cases given
          simpa using here
        · cases given
      · cases given

theorem forall_bracket (each : ∀ text item rest, member text = some (item, rest) → holds item)
    {close : Char} {text rest : List Char} {items : List α}
    (given : bracket member close text = some (items, rest)) : ∀ item ∈ items, holds item := by
  unfold bracket at given
  split at given
  · split at given
    · cases given
      simp
    · exact forall_members each given
  · cases given

theorem holds_entry {value : List Char → Option (Value × List Char)} {holds : Value → Prop}
    (each : ∀ text item rest, value text = some (item, rest) → holds item)
    {text rest : List Char} {read : String × Value} (given : entry value text = some (read, rest)) :
    holds read.2 := by
  rw [entry, Option.bind_eq_bind, Option.bind_eq_some_iff] at given
  obtain ⟨⟨key, after⟩, -, given⟩ := given
  dsimp only at given
  split at given
  · rw [Option.bind_eq_bind, Option.bind_eq_some_iff] at given
    obtain ⟨⟨item, left⟩, found, given⟩ := given
    cases given
    exact each _ _ _ found
  · cases given

theorem distinct_readValue {depth : Nat} {text rest : List Char} {value : Value}
    (given : readValue depth text = some (value, rest)) : value.Distinct := by
  -- The reader goes into brackets as an argument, so its cases alone give no hypothesis.
  induction depth using Nat.strongRecOn generalizing text rest value with
  | ind depth ih =>
      fun_induction readValue depth text generalizing rest value with
      | case5 => cases given
      | case7 => cases given
      | case6 text depth =>
          obtain ⟨⟨items, left⟩, found, same⟩ := Option.map_eq_some_iff.mp given
          cases same
          refine (Value.distinct_list items).mpr (forall_bracket ?_ found)
          intro text item rest
          exact ih depth (by omega)
      | case8 text depth =>
          obtain ⟨⟨entries, left⟩, found, same⟩ := Option.map_eq_some_iff.mp given
          cases same
          refine (Value.distinct_dict _).mpr ⟨Entries.nodup_keys_ofList entries, ?_⟩
          refine Entries.forall_ofList (forall_bracket ?_ found)
          intro text entry rest
          exact holds_entry fun text item rest => ih depth (by omega)
      | _ =>
          obtain ⟨_, -, same⟩ := Option.map_eq_some_iff.mp given
          cases same
          exact trivial

theorem distinct_read {text : String} {value : Value} (given : read text = some value) :
    value.Distinct := by
  unfold read at given
  split at given
  · next found =>
      split at given
      · cases given
        exact distinct_readValue found
      · cases given
  · cases given

end Json

namespace Yaml.Datum

mutual

theorem distinct_value? (datum : Datum) {value : Value} (given : datum.value? = some value) :
    value.Distinct := by
  match datum with
  | .scalar written =>
      rw [value?] at given
      cases given
      exact trivial
  | .sequence items =>
      rw [value?] at given
      obtain ⟨values, found, same⟩ := Option.map_eq_some_iff.mp given
      cases same
      exact (Value.distinct_list values).mpr (distinct_values? items found)
  | .mapping entries =>
      rw [value?] at given
      obtain ⟨fields, found, same⟩ := Option.map_eq_some_iff.mp given
      cases same
      have nothing : (Entries.keys ([] : Entries Value)).Nodup := List.nodup_nil
      exact distinct_entriesInto? entries nothing (by simp) found
  | .tagged tag inner =>
      rw [value?] at given
      exact distinct_value? inner given

theorem distinct_values? (items : List Datum) {values : List Value}
    (given : values? items = some values) : ∀ value ∈ values, value.Distinct := by
  match items with
  | [] =>
      cases given
      simp
  | item :: rest =>
      rw [values?] at given
      split at given
      · cases given
      · next first here =>
          obtain ⟨others, later, same⟩ := Option.map_eq_some_iff.mp given
          cases same
          exact List.forall_mem_cons.mpr
            ⟨distinct_value? item here, distinct_values? rest later⟩

theorem distinct_entriesInto? (entries : List (Datum × Datum)) {done fields : Entries Value}
    (names : (Entries.keys done).Nodup) (values : ∀ entry ∈ done, entry.2.Distinct)
    (given : entriesInto? done entries = some fields) : (Value.dict fields).Distinct := by
  match entries with
  | [] =>
      cases given
      exact (Value.distinct_dict done).mpr ⟨names, values⟩
  | (key, datum) :: rest =>
      rw [entriesInto?] at given
      split at given
      · next name value _ found =>
          refine distinct_entriesInto? rest (Entries.nodup_keys_put names name value) ?_ given
          exact Entries.forall_put (distinct_value? datum found) values
      · cases given

end

end Yaml.Datum

namespace VariablesFile

theorem distinct_parse {path text : String} {value : Value}
    (given : parse path text = .ok value) : value.Distinct := by
  unfold parse at given
  split at given
  · split at given
    · next found =>
        cases given
        exact Json.distinct_read found
    · cases given
  · split at given
    · cases given
    · next datum _ =>
        split at given
        · next found =>
            cases given
            exact datum.distinct_value? found
        · cases given

theorem distinct_load {fs : FileSystem} {path : String} {value : Value}
    (given : load fs path = .ok value) : value.Distinct := by
  unfold load at given
  split at given
  · cases given
  · exact distinct_parse given

end VariablesFile

end StageTemplates
