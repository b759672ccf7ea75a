/-!
# Help texts

The program's version, its usage line and the help of every command.
-/
namespace Microbench.CommandLine

inductive Topic where
  | program
  | cache
  | memcpy
  | matmul
  | vectorAdd
  | sweep
  | help
  deriving DecidableEq, Repr

def versionText : String := "cyclebench 0.1.0\n"

def usageText : String := "Usage: cyclebench [OPTIONS] <COMMAND>"

namespace Topic

/-- The topics that are commands. -/
def commands : List Topic := [.cache, .memcpy, .matmul, .vectorAdd, .sweep, .help]

def name : Topic → String
  | .program => "cyclebench"
  | .cache => "cache"
  | .memcpy => "memcpy"
  | .matmul => "matmul"
  | .vectorAdd => "vector-add"
  | .sweep => "sweep"
  | .help => "help"

/-- The command of a name. -/
def ofName? (s : String) : Option Topic := commands.find? (·.name == s)

def helpLines : Topic → List String
  | .program =>
    ["Cycle-accurate micro-benchmarks for small numeric kernels and cache behaviour",
     "",
     usageText,
     "",
     "Commands:",
     "  cache       Walk a working set of the given size with a read-modify-write loop",
     "  memcpy      Copy 512-byte blocks between two buffers",
     "  matmul      Multiply two N x N single-precision matrices",
     "  vector-add  Add two 16-bit integer vectors elementwise",
     "  sweep       Cache-pressure sweep across working-set sizes",
     "  help        Print this message or the help of the given subcommand(s)",
     "",
     "Options:",
     "      --json             Print measurements as JSON instead of text lines",
     "      --monotonic        Time with the monotonic clock even when a cycle counter is available",
     "      --repeat <REPEAT>  Timed invocations per kernel; ticks are summed [default: 1]",
     "  -h, --help             Print help",
     "  -V, --version          Print version"]
  | .cache =>
    ["Walk a working set of the given size with a read-modify-write loop",
     "",
     "Usage: cyclebench cache [OPTIONS] <KB>",
     "",
     "Arguments:",
     "  <KB>  Working-set size in kilobytes",
     "",
     "Options:",
     "      --json              Print measurements as JSON instead of text lines",
     "      --steps <STEPS>     [default: 268435456]",
     "      --kernel <KERNELS>  Restrict to these kernels (the reference always runs)",
     "      --monotonic         Time with the monotonic clock even when a cycle counter is available",
     "      --repeat <REPEAT>   Timed invocations per kernel; ticks are summed [default: 1]",
     "  -h, --help              Print help"]
  | .memcpy =>
    ["Copy 512-byte blocks between two buffers",
     "",
     "Usage: cyclebench memcpy [OPTIONS] <ITERATIONS>",
     "",
     "Arguments:",
     "  <ITERATIONS>  Number of 512-byte blocks to copy",
     "",
     "Options:",
     "      --json              Print measurements as JSON instead of text lines",
     "      --trace             Also time every block copy individually",
     "      --kernel <KERNELS>  ",
     "      --monotonic         Time with the monotonic clock even when a cycle counter is available",
     "      --repeat <REPEAT>   Timed invocations per kernel; ticks are summed [default: 1]",
     "  -h, --help              Print help"]
  | .matmul =>
    ["Multiply two N x N single-precision matrices",
     "",
     "Usage: cyclebench matmul [OPTIONS] [N]",
     "",
     "Arguments:",
     "  [N]  [default: 4]",
     "",
     "Options:",
     "      --json              Print measurements as JSON instead of text lines",
     "      --seed <SEED>       Fill inputs pseudo-randomly from this seed instead of counting up",
     "      --monotonic         Time with the monotonic clock even when a cycle counter is available",
     "      --print             Print the input matrices and every kernel's product",
     "      --kernel <KERNELS>  ",
     "      --repeat <REPEAT>   Timed invocations per kernel; ticks are summed [default: 1]",
     "  -h, --help              Print help"]
  | .vectorAdd =>
    ["Add two 16-bit integer vectors elementwise",
     "",
     "Usage: cyclebench vector-add [OPTIONS] [LEN]",
     "",
     "Arguments:",
     "  [LEN]  [default: 256]",
     "",
     "Options:",
     "      --json              Print measurements as JSON instead of text lines",
     "      --print             Print every kernel's output, one element per line",
     "      --kernel <KERNELS>  ",
     "      --monotonic         Time with the monotonic clock even when a cycle counter is available",
     "      --repeat <REPEAT>   Timed invocations per kernel; ticks are summed [default: 1]",
     "  -h, --help              Print help"]
  | .sweep =>
    ["Cache-pressure sweep across working-set sizes",
     "",
     "Usage: cyclebench sweep [OPTIONS]",
     "",
     "Options:",
     "      --json              Print measurements as JSON instead of text lines",
     "      --sizes <SIZES>     Working-set sizes in kilobytes [default: 4 8 16 32 64 128 256 512 "
       ++ "1024 2048 4096 8192 16384]",
     "      --monotonic         Time with the monotonic clock even when a cycle counter is available",
     "      --steps <STEPS>     [default: 268435456]",
     "      --kernel <KERNELS>  ",
     "      --repeat <REPEAT>   Timed invocations per kernel; ticks are summed [default: 1]",
     "  -h, --help              Print help"]
  | .help =>
    ["Print this message or the help of the given subcommand(s)",
     "",
     "Usage: cyclebench help [COMMAND]...",
     "",
     "Arguments:",
     "  [COMMAND]...  Print help for the subcommand(s)"]

def helpText (t : Topic) : String := String.join (t.helpLines.map (· ++ "\n"))

end Topic

end Microbench.CommandLine
