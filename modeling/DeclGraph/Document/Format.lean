import DeclGraph.Document.Record
import DeclGraph.Json.Schema

/-!
# Documents as JSON

The columns of each record, in the order in which they are written. What is absent is left out,
and an empty list is written.
-/

namespace DeclGraph

open Json

/-- The names of the kinds of type. -/
def Kind.codec : Codec Kind := .choice (Kind.all.map fun k => (k.name, k)) Kind.name

/-- Resolved type strings. -/
def LinkRecord.schema : Schema LinkRecord :=
  { title := "struct LinkRecord"
    blank := {}
    columns := [
      .make "type_string" .text (·.typeString) (fun v r => { r with typeString := v }) true,
      .make "resolved" (.option .text) (·.resolved) (fun v r => { r with resolved := v }),
      .make "primitive" .bool (·.primitive) (fun v r => { r with primitive := v })] }

/-- Members. -/
def MemberRecord.schema : Schema MemberRecord :=
  { title := "struct MemberRecord"
    blank := {}
    columns := [
      .make "name" .text (·.name) (fun v r => { r with name := v }) true,
      .make "type_string" .text (·.typeString) (fun v r => { r with typeString := v }) true,
      .make "declaration_order" (.option .word) (·.order) (fun v r => { r with order := v }),
      .make "bit_field_width" (.option .byte) (·.bitWidth) (fun v r => { r with bitWidth := v }),
      .make "alignment" (.option .word) (·.alignment) (fun v r => { r with alignment := v }),
      .make "is_function_pointer" .bool (·.isFunctionPointer)
        (fun v r => { r with isFunctionPointer := v }),
      .make "function_signature_id" (.option .long) (·.signature)
        (fun v r => { r with signature := v }),
      .make "offset" (.option .word) (·.offset) (fun v r => { r with offset := v }),
      .make "resolved" (.option .text) (·.resolved) (fun v r => { r with resolved := v }),
      .make "primitive" .bool (·.primitive) (fun v r => { r with primitive := v })] }

/-- Types. -/
def TypeRecord.schema : Schema TypeRecord :=
  { title := "struct TypeRecord"
    blank := {}
    columns := [
      .make "name" .text (·.name) (fun v r => { r with name := v }) true,
      .make "namespace" .text (·.space) (fun v r => { r with space := v }),
      .make "kind" Kind.codec (·.kind) (fun v r => { r with kind := v }) true,
      .make "alignment" (.option .word) (·.alignment) (fun v r => { r with alignment := v }),
      .make "is_ignored" .bool (·.isIgnored) (fun v r => { r with isIgnored := v }),
      .make "base_path" .text (·.basePath) (fun v r => { r with basePath := v }),
      .make "size" (.option .word) (·.size) (fun v r => { r with size := v }),
      .make "bases" (.list LinkRecord.schema.codec) (·.bases)
        (fun v r => { r with bases := v }),
      .make "template_arguments" (.list LinkRecord.schema.codec) (·.arguments)
        (fun v r => { r with arguments := v }),
      .make "members" (.list MemberRecord.schema.codec) (·.members)
        (fun v r => { r with members := v })] }

/-- Typedefs. -/
def TypedefRecord.schema : Schema TypedefRecord :=
  { title := "struct TypedefRecord"
    blank := {}
    columns := [
      .make "name" .text (·.name) (fun v r => { r with name := v }) true,
      .make "namespace" .text (·.space) (fun v r => { r with space := v }),
      .make "target" .text (·.target) (fun v r => { r with target := v }) true,
      .make "resolved" (.option .text) (·.resolved) (fun v r => { r with resolved := v }),
      .make "primitive" .bool (·.primitive) (fun v r => { r with primitive := v })] }

namespace Document

/-- Documents. -/
def schema : Schema Document :=
  { title := "struct TypeDatabase"
    blank := {}
    columns := [
      .make "types" (.list TypeRecord.schema.codec) (·.types) (fun v r => { r with types := v }),
      .make "typedefs" (.list TypedefRecord.schema.codec) (·.typedefs)
        (fun v r => { r with typedefs := v })] }

/-- The JSON text of a document. -/
def toJson (d : Document) : String := schema.toText d

/-- The document of a JSON text. -/
def ofJson (text : String) : Except ReadError Document := schema.ofText text

end Document

end DeclGraph
