import PluginCompiler.Proofs.Section.Checked
import PluginCompiler.Spec.Decode

/-! Records that have been read. Every field of one is what its own check makes of the entry under its
name, whatever the other fields are. -/

set_option autoImplicit false

namespace PluginCompiler

open Value

theorem Value.asRecord_eq_valid {α : Type} {check : List (Value × Value) → Checked α} {v : Value} {a : α} :
    asRecord check v = .valid a ↔ ∃ entries, v.opened = .map entries ∧ check entries = .valid a := by
  unfold asRecord
  split
  · next entries opened =>
    constructor
    · exact fun checked => ⟨entries, opened, checked⟩
    · rintro ⟨entries', opened', checked⟩
      rwa [Value.map.inj (opened.symm.trans opened')]
  · next other =>
    constructor
    · nofun
    · rintro ⟨entries, opened, _⟩
      exact absurd opened (other entries)

structure Parameter.Decoded (entries : List (Value × Value)) (p : Parameter) : Prop where
  rawName : field entries "raw_name" "" asText = .valid p.rawName
  name : field entries "name" "" asText = .valid p.name
  type : field entries "type" "" (orIfNull (text "") asText) = .valid p.type
  internalType : field entries "internal_type" "" asText = .valid p.internalType
  title : field entries "title" none optionalText = .valid p.title
  required : field entries "required" false asBool = .valid p.required
  description : field entries "description" none optionalText = .valid p.description
  enum : field entries "enum" [] (orIfNull (list []) (asList asAny)) = .valid p.enum
  default : field entries "default" null asAny = .valid p.default
  embed : field entries "embed" false asBool = .valid p.embed
  nullable : field entries "nullable" false asBool = .valid p.nullable
  enumLiterals : field entries "enum_literals" [] (asList EnumLiteral.decode) = .valid p.enumLiterals

structure Handler.Decoded (entries : List (Value × Value)) (h : Handler) : Prop where
  rawName : field entries "raw_name" "" asText = .valid h.rawName
  name : field entries "name" "" asText = .valid h.name
  title : field entries "title" none optionalText = .valid h.title
  description : field entries "description" none optionalText = .valid h.description
  input : field entries "input" .empty (orIfNull (map []) decodeParameters) = .valid h.input
  output : field entries "output" .empty (orIfNull (map []) decodeParameters) = .valid h.output
  packageRoot : field entries "package_root" "" asText = .valid h.packageRoot

structure Spec.Decoded (entries : List (Value × Value)) (spec : Spec) : Prop where
  specVersion : field entries "plugin_spec_version" none optionalLabel = .valid spec.specVersion
  name : field entries "name" "" (numberAsText asText) = .valid spec.name
  title : field entries "title" none optionalLabel = .valid spec.title
  description : field entries "description" none optionalText = .valid spec.description
  version : field entries "version" none optionalLabel = .valid spec.version
  vendor : field entries "vendor" none optionalLabel = .valid spec.vendor
  tags : field entries "tags" [] (orIfNull (list []) (asList asText)) = .valid spec.tags
  icon : field entries "icon" none optionalText = .valid spec.icon
  help : field entries "help" none optionalText = .valid spec.help
  connection : field entries "connection" .empty (orIfNull (map []) decodeParameters) =
    .valid spec.connection
  rawTypes : typesField entries = .valid spec.rawTypes
  actions : field entries "actions" .empty (orIfNull (map []) (asSection Handler.decode)) =
    .valid spec.actions
  triggers : field entries "triggers" .empty (orIfNull (map []) (asSection Handler.decode)) =
    .valid spec.triggers
  http : field entries "http" {} (orIfNull (map []) HttpSettings.decode) = .valid spec.http
  packageRoot : field entries "package_root" "" asText = .valid spec.packageRoot
  location : field entries "spec_location" "" asText = .valid spec.location
  customTypes : field entries "custom_types" .empty (asSection CustomType.decode) =
    .valid spec.customTypes
  connectionKey : field entries "connection_data_key" "" asText = .valid spec.connectionKey

/-! The fields are taken off from the last to the first. -/

theorem Parameter.decoded_of_decode {v : Value} {p : Parameter} (checked : decode v = .valid p) :
    ∃ entries, v.opened = .map entries ∧ Decoded entries p := by
  simp only [decode, asRecord_eq_valid, Checked.seq_eq_valid, Checked.map_eq_valid] at checked
  obtain ⟨entries, opened, checked⟩ := checked
  obtain ⟨_, _, checked, enumLiterals, rfl⟩ := checked
  obtain ⟨_, _, checked, nullable, rfl⟩ := checked
  obtain ⟨_, _, checked, embed, rfl⟩ := checked
  obtain ⟨_, _, checked, default, rfl⟩ := checked
  obtain ⟨_, _, checked, enum, rfl⟩ := checked
  obtain ⟨_, _, checked, description, rfl⟩ := checked
  obtain ⟨_, _, checked, required, rfl⟩ := checked
  obtain ⟨_, _, checked, title, rfl⟩ := checked
  obtain ⟨_, _, checked, internalType, rfl⟩ := checked
  obtain ⟨_, _, checked, type, rfl⟩ := checked
  obtain ⟨_, _, checked, name, rfl⟩ := checked
  obtain ⟨_, rawName, rfl⟩ := checked
  exact ⟨entries, opened, rawName, name, type, internalType, title, required, description, enum,
    default, embed, nullable, enumLiterals⟩

theorem Handler.decoded_of_decode {v : Value} {h : Handler} (checked : decode v = .valid h) :
    ∃ entries, v.opened = .map entries ∧ Decoded entries h := by
  simp only [decode, asRecord_eq_valid, Checked.seq_eq_valid, Checked.map_eq_valid] at checked
  obtain ⟨entries, opened, checked⟩ := checked
  obtain ⟨_, _, checked, packageRoot, rfl⟩ := checked
  obtain ⟨_, _, checked, output, rfl⟩ := checked
  obtain ⟨_, _, checked, input, rfl⟩ := checked
  obtain ⟨_, _, checked, description, rfl⟩ := checked
  obtain ⟨_, _, checked, title, rfl⟩ := checked
  obtain ⟨_, _, checked, name, rfl⟩ := checked
  obtain ⟨_, rawName, rfl⟩ := checked
  exact ⟨entries, opened, rawName, name, title, description, input, output, packageRoot⟩

theorem Spec.decoded_of_decode {v : Value} {spec : Spec} (checked : decode v = .valid spec) :
    ∃ entries, v.opened = .map entries ∧ Decoded entries spec := by
  simp only [decode, asRecord_eq_valid, Checked.seq_eq_valid, Checked.map_eq_valid] at checked
  obtain ⟨entries, opened, checked⟩ := checked
  obtain ⟨_, _, checked, connectionKey, rfl⟩ := checked
  obtain ⟨_, _, checked, customTypes, rfl⟩ := checked
  obtain ⟨_, _, checked, location, rfl⟩ := checked
  obtain ⟨_, _, checked, packageRoot, rfl⟩ := checked
  obtain ⟨_, _, checked, http, rfl⟩ := checked
  obtain ⟨_, _, checked, triggers, rfl⟩ := checked
  obtain ⟨_, _, checked, actions, rfl⟩ := checked
  obtain ⟨_, _, checked, rawTypes, rfl⟩ := checked
  obtain ⟨_, _, checked, connection, rfl⟩ := checked
  obtain ⟨_, _, checked, help, rfl⟩ := checked
  obtain ⟨_, _, checked, icon, rfl⟩ := checked
  obtain ⟨_, _, checked, tags, rfl⟩ := checked
  obtain ⟨_, _, checked, vendor, rfl⟩ := checked
  obtain ⟨_, _, checked, version, rfl⟩ := checked
  obtain ⟨_, _, checked, description, rfl⟩ := checked
  obtain ⟨_, _, checked, title, rfl⟩ := checked
  obtain ⟨_, _, checked, name, rfl⟩ := checked
  obtain ⟨_, specVersion, rfl⟩ := checked
  exact ⟨entries, opened, specVersion, name, title, description, version, vendor, tags, icon, help,
    connection, rawTypes, actions, triggers, http, packageRoot, location, customTypes, connectionKey⟩

end PluginCompiler
