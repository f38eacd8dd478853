import LevinNet.Live.Crawl

/-
The command line.
-/

/-- How the command line is used. -/
def LevinNet.CommandLine.usage : String :=
  "Usage: crawler [OPTIONS] --seed <SEED>\n\n" ++
  "  -s, --seed <SEED>                  a peer to start from, as host:port or a host\n" ++
  "  -n, --network <NETWORK>            mainnet, testnet or stagenet [mainnet]\n" ++
  "  -c, --concurrent-tasks <NUMBER>    how many peers are visited at a time [250]\n" ++
  "      --peer-timeout <SECONDS>       how long a handshake may take [20]\n" ++
  "  -d, --deadline <SECONDS>           when to stop\n" ++
  "  -p, --proxy <ADDRESS>              a SOCKS5 proxy to dial through\n" ++
  "  -l, --log-level <LEVEL>            how much is told [info]"

def main (args : List String) : IO UInt32 := do
  let exit ← match LevinNet.CommandLine.job args with
    | .ok job => LevinNet.Live.run job
    | .error exit => do
      if exit.status = 0 then IO.println LevinNet.CommandLine.usage
      else if exit.error.isNone then IO.eprintln LevinNet.CommandLine.usage
      pure exit
  IO.print exit.output
  if let some error := exit.error then IO.eprintln error
  return exit.status.toUInt32
