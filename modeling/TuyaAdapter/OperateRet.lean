/-!
Contract: the result codes the adapter functions return.

Only the codes that a modelled function returns are listed. Their numbers are
not part of the sources; callers compare with `OPRT_OK` and report the rest.
-/

namespace TuyaAdapter

/-- `OPERATE_RET`. -/
inductive OperateRet where
  | ok
  | comError
  | invalidParm
  | mallocFailed
  | notSupported
  | notFound
  | exceedUpperLimit
  | timeout
deriving DecidableEq, Repr

end TuyaAdapter
