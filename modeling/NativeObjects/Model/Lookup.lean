import NativeObjects.Model.Wrap

/-!
# Looking a property up

What V8 makes of the templates when script reads a property of an object, where script
has changed neither the object, nor its prototypes, nor their functions. The object has
what the instance template of its own class sets. The prototype of a class has what the
prototype template sets, and the class's function as its `constructor`; it inherits from
the prototype of the class that is inherited from. The last one inherits from
`Object.prototype`, which is no part of this: `none` says that the search goes on there.

Where a key is set twice at one place, or the template of an ancestor sets properties of
instances, versions of V8 differ; `Hierarchy.Orderly` excludes both.
-/

namespace NativeObjects

open Lib.Utf (utf8 utf16)

variable {ι τ : Type}

inductive PropertyKey where
  /-- A string, of these code units. -/
  | name (units : List UInt16)
  /-- `Symbol::GetToStringTag(isolate)` -/
  | toStringTag
  deriving DecidableEq, Repr

/-- The JavaScript string `name`. -/
def PropertyKey.ofName (name : String) : PropertyKey := .name (utf16 name.toList)

/-- `NewFromUtf8(isolate, name, kInternalized, strlen(name))`, as `InstallAccessor` names
its property. -/
def Config.accessorName (name : String) : PropertyKey := .name (utf16 (name.toList.takeWhile (· ≠ '\x00')))

/-- `MethodConfiguration::MethodName` -/
def Config.methodName (name : String) : PropertyKey := .name (newFromOneByte name)

namespace Property

def key : Property ι τ → PropertyKey
  | accessor name .. => Config.accessorName name
  | method name .. => Config.methodName name
  | toStringTag .. => .toStringTag

/-- The property with the key. -/
def find (key : PropertyKey) (properties : List (Property ι τ)) : Option (Property ι τ) :=
  properties.find? fun p => p.key = key

end Property

/-- What script finds. -/
inductive Found (ι : Type) where
  | property (p : Property ι TemplateId)
  /-- The function of a template, the `constructor` of its prototype. -/
  | function (ft : TemplateId)
  deriving DecidableEq, Repr

namespace Templates

/-- The property with the key at a place of a template. -/
def own (templates : Templates ι) (place : Place) (key : PropertyKey) (ft : TemplateId) :
    Option (Property ι TemplateId) :=
  (templates.templates ft).bind fun template => Property.find key (template.properties place)

/-- What the prototype of a template's function has of its own. -/
def ofPrototype (templates : Templates ι) (key : PropertyKey) (ft : TemplateId) : Option (Found ι) :=
  if key = .ofName "constructor" then some (.function ft) else (templates.own .onPrototype key ft).map .property

/-- What script finds under the key on an instance of the template. -/
def lookup (templates : Templates ι) (key : PropertyKey) (ft : TemplateId) : Option (Found ι) :=
  ((templates.own .onInstance key ft).map .property).or
    (Lib.Forest.nearest templates.parent (templates.ofPrototype key) templates.next ft)

end Templates

end NativeObjects
