import TypedColumns.Resolve

/-!
Converters remembered by column and target. Entries forget which values they read into; a look-up
recovers that or reports an internal fault. A miss is computed, and only a success is remembered.
-/
namespace TypedColumns

/-- A target known in advance, or one chosen at run time and read boxed. -/
inductive CacheKey where
  | typed (t : Target)
  | variant (t : Target)
deriving DecidableEq

namespace CacheKey

/-- Whose values a converter for the key reads into. -/
def carrier : CacheKey → Target
  | typed t => t
  | variant _ => .value

def resolve (column : Column) : (key : CacheKey) → Result (Converter key.carrier)
  | typed t => column.resolve t
  | variant t => column.resolveVariant t

end CacheKey

structure AnyConverter where
  carrier : Target
  converter : Converter carrier

def AnyConverter.recover (any : AnyConverter) (c : Target) : Result (Converter c) :=
  if h : any.carrier = c then .ok (h ▸ any.converter) else .error (.internal .cachedType)

structure CacheSlot where
  column : Nat
  key : CacheKey
deriving DecidableEq

structure ConverterCache where
  entries : List (CacheSlot × AnyConverter)

namespace ConverterCache

def empty : ConverterCache := ⟨[]⟩

def find? (cache : ConverterCache) (slot : CacheSlot) : Option AnyConverter :=
  cache.entries.lookup slot

def insert (cache : ConverterCache) (slot : CacheSlot) (any : AnyConverter) : ConverterCache :=
  ⟨(slot, any) :: cache.entries⟩

/-- The remembered converter, or the one built and remembered now. -/
def obtain (cache : ConverterCache) (slot : CacheSlot)
    (build : Unit → Result (Converter slot.key.carrier)) :
    Result (Converter slot.key.carrier) × ConverterCache :=
  match cache.find? slot with
  | some any => (any.recover slot.key.carrier, cache)
  | none => match build () with
    | .ok conv => (.ok conv, cache.insert slot ⟨_, conv⟩)
    | .error e => (.error e, cache)

end ConverterCache

/-- Plans, and the converters bound to the vectors of one chunk. -/
structure Caches where
  plans : ConverterCache
  bound : ConverterCache

namespace Caches

def plan (caches : Caches) (column : Column) (slot : CacheSlot) :
    Result (Converter slot.key.carrier) × Caches :=
  let (plan, plans) := caches.plans.obtain slot fun _ => slot.key.resolve column
  (plan, { caches with plans := plans })

/-- A plan prepared for the column's vector. -/
def bind (caches : Caches) (view : ColumnView) (slot : CacheSlot) :
    Result (Converter slot.key.carrier) × Caches :=
  let (plan, caches) := caches.plan view.column slot
  (plan >>= fun plan => plan.prepare view, caches)

/-- The converter for the column's vector, remembered only if `keep` holds. -/
def converter (caches : Caches) (keep : Bool) (view : ColumnView) (slot : CacheSlot) :
    Result (Converter slot.key.carrier) × Caches :=
  if keep then
    match caches.bound.find? slot with
    | some any => (any.recover slot.key.carrier, caches)
    | none => match caches.bind view slot with
      | (.ok conv, caches) =>
        (.ok conv, { caches with bound := caches.bound.insert slot ⟨_, conv⟩ })
      | (.error e, caches) => (.error e, caches)
  else caches.bind view slot

end Caches
end TypedColumns
