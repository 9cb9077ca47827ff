/-! The two support modules, as they are copied next to injected files. -/

namespace DelayInjection.SupportModule

/-- The module that JavaScript files import, line by line. -/
def javascriptLines : List String := [
  "// flake-monster.runtime.js",
  "// Injected by flakemonster. DO NOT edit manually.",
  "// This file is removed during restore.",
  "",
  "let defaultMinMs = 0;",
  "let defaultMaxMs = 50;",
  "",
  "function mulberry32(seed) \x7b",
  "  return function () \x7b",
  "    seed |= 0;",
  "    seed = (seed + 0x6d2b79f5) | 0;",
  "    let t = Math.imul(seed ^ (seed >>> 15), 1 | seed);",
  "    t = (t + Math.imul(t ^ (t >>> 7), 61 | t)) ^ t;",
  "    return ((t ^ (t >>> 14)) >>> 0) / 4294967296;",
  "  \x7d;",
  "\x7d",
  "",
  "function hashString(str) \x7b",
  "  let hash = 5381;",
  "  for (let i = 0; i < str.length; i++) \x7b",
  "    hash = ((hash << 5) + hash + str.charCodeAt(i)) | 0;",
  "  \x7d",
  "  return hash >>> 0;",
  "\x7d",
  "",
  "function resolveDelay(opts) \x7b",
  "  const \x7b seed, file, fn, n, minMs, maxMs \x7d = opts;",
  "  const contextSeed = (seed + hashString(`$\x7bfile\x7d:$\x7bfn\x7d:$\x7bn\x7d`)) | 0;",
  "  const rng = mulberry32(contextSeed);",
  "  const lo = minMs ?? defaultMinMs;",
  "  const hi = maxMs ?? defaultMaxMs;",
  "  return Math.floor(lo + rng() * (hi - lo) + 0.5);",
  "\x7d",
  "",
  "/**",
  " * Suspend for a number of milliseconds.",
  " * Accepts either a literal delay or \x7b seed, file, fn, n, minMs?, maxMs? \x7d,",
  " * in which case the delay is derived deterministically from that context.",
  " * @param \x7bnumber|Object\x7d msOrOptions",
  " * @returns \x7bPromise<void>\x7d",
  " */",
  "export function __FlakeMonster__(msOrOptions) \x7b",
  "  const ms = typeof msOrOptions === 'number' ? msOrOptions : resolveDelay(msOrOptions);",
  "  return new Promise((resolve) => setTimeout(resolve, ms));",
  "\x7d",
  "",
  "/**",
  " * Override the default delay range used for derived delays.",
  " * @param \x7b\x7b minMs?: number, maxMs?: number \x7d\x7d config",
  " */",
  "__FlakeMonster__.configure = function (config = \x7b\x7d) \x7b",
  "  if (config.minMs !== undefined) defaultMinMs = config.minMs;",
  "  if (config.maxMs !== undefined) defaultMaxMs = config.maxMs;",
  "\x7d;"]

/-- The module that Python files import, line by line. -/
def pythonLines : List String := [
  "\"\"\"",
  "flake_monster_runtime.py",
  "",
  "Injected by flakemonster. DO NOT edit manually.",
  "This file is removed during restore.",
  "\"\"\"",
  "",
  "import asyncio",
  "",
  "_MASK32 = 0xFFFFFFFF",
  "",
  "_defaults = \x7b\"min_ms\": 0, \"max_ms\": 50\x7d",
  "",
  "",
  "def _hash_string(text):",
  "    data = text.encode(\"utf-16-le\", errors=\"surrogatepass\")",
  "    h = 5381",
  "    for i in range(0, len(data), 2):",
  "        h = ((h << 5) + h + (data[i] | (data[i + 1] << 8))) & _MASK32",
  "    return h",
  "",
  "",
  "def _mulberry32_first(seed):",
  "    state = (seed + 0x6D2B79F5) & _MASK32",
  "    t = ((state ^ (state >> 15)) * (1 | state)) & _MASK32",
  "    t = ((t + (((t ^ (t >> 7)) * (61 | t)) & _MASK32)) & _MASK32) ^ t",
  "    return ((t ^ (t >> 14)) & _MASK32) / 4294967296",
  "",
  "",
  "def resolve_delay(seed, file, fn, n, min_ms=None, max_ms=None):",
  "    \"\"\"Derive the delay for (seed, file, fn, n) the same way injection does.\"\"\"",
  "    lo = _defaults[\"min_ms\"] if min_ms is None else min_ms",
  "    hi = _defaults[\"max_ms\"] if max_ms is None else max_ms",
  "    context_seed = (seed + _hash_string(f\"\x7bfile\x7d:\x7bfn\x7d:\x7bn\x7d\")) & _MASK32",
  "    return int(lo + _mulberry32_first(context_seed) * (hi - lo) + 0.5)",
  "",
  "",
  "def configure(min_ms=None, max_ms=None):",
  "    \"\"\"Override the default delay range used for derived delays.\"\"\"",
  "    if min_ms is not None:",
  "        _defaults[\"min_ms\"] = min_ms",
  "    if max_ms is not None:",
  "        _defaults[\"max_ms\"] = max_ms",
  "",
  "",
  "async def __FlakeMonster__(delay_ms=None, *, seed=0, file=\"\", fn=\"\", n=0, min_ms=None, max_ms=None):",
  "    \"\"\"Suspend for a literal delay, or one derived from the injection context.\"\"\"",
  "    if delay_ms is None:",
  "        delay_ms = resolve_delay(seed, file, fn, n, min_ms, max_ms)",
  "    await asyncio.sleep(delay_ms / 1000)"]

/-- Every line ends with a newline. -/
def text (lines : List String) : List Char := lines.flatMap fun line => line.toList ++ ['\n']

def javascriptName : String := "flake-monster.runtime.js"

def pythonModule : String := "flake_monster_runtime"

def pythonName : String := pythonModule ++ ".py"

end DelayInjection.SupportModule
