import ClusterMembership.Name
import Std.Data.ExtHashMap

/-!
# Keys of maps

Natural numbers, names, and pairs of names are keys of maps: equal keys are the same
key, and have the same hash.  This is stated once, so that every map rests on the
same instances.
-/

namespace ClusterMembership

instance equivBEqNat : EquivBEq Nat := inferInstance

instance lawfulHashableNat : LawfulHashable Nat := inferInstance

instance equivBEqName : EquivBEq MemberName := inferInstance

instance lawfulHashableName : LawfulHashable MemberName := inferInstance

instance equivBEqNames : EquivBEq (MemberName × MemberName) := inferInstance

instance lawfulHashableNames : LawfulHashable (MemberName × MemberName) := inferInstance

end ClusterMembership
